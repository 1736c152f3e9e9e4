import RunSigning.Proofs.Grammar.Partial
import RunSigning.Proofs.Recording.Hole

/-
This file rewrites the value of a signature in a declaration. If the equals sign before the value
is too long, the written text begins within it, and the tag may be read in another way; but whether
the text is refused can be told from the declaration alone.
-/

namespace RunSigning.Markup
open RunSigning.Text

theorem readsTexts_nil (room : Nat) : ReadsTexts [] room :=
  (Entities.wellFormed_of_eq_nil rfl).readsTexts room

theorem Builder.frames_of_finish {builder : Builder} {tree : Tree}
    (finished : builder.finish = .ok tree) : builder.frames = [] := by
  rw [finish] at finished
  split at finished
  · cases finished
  · rename_i closed
    simpa using closed

/-- In a document that is read to its end, what stands behind a start tag in the hole and some
content is scanned and added to what has grown. -/
theorem Hole.exists_inside (hole : Hole) {tag : TagSource}
    (reading : tag.Reading [] nestingLimit hole.scope 0) {first : Content}
    {firstNodes : Nat → List Node}
    (firstReads : first.Reads [] nestingLimit reading.inner 0 firstNodes 0)
    (separated : first.Separated) {rest : List Char} (bracket : ∀ c ∈ rest.head?, c = '<')
    {tree : Tree}
    (success : Tree.parse (String.ofList (hole.front ++
      (tag.render ++ closing false ++ (first.render ++ rest)))) = .ok tree) :
    ∃ (offset place : Nat) (tokens : List Token) (builder grown changed : Builder)
        (nodes : List Node),
      Scan.run .document (.content 1) ⟨offset, rest⟩ = ⟨tokens, none⟩ ∧
      (builder.afterTag reading place false).Ready [] reading.inner 0 ∧
      (builder.afterTag reading place false).GrownBy nodes 0 grown ∧
      grown.addTokens nestingLimit tokens = .ok changed ∧ changed.frames = [] := by
  obtain ⟨tokens, scan⟩ := Tree.exists_scan success
  obtain ⟨grown, grows, finished⟩ := (Tree.parse_eq_ok_iff_of_scan scan).mp success
  have closed := Builder.frames_of_finish finished
  have text : hole.front ++ (tag.render ++ closing false ++ (first.render ++ rest)) =
      hole.source.opening ++ (hole.source.prolog ++ (hole.tag.render ++ closing false ++
        (hole.first.render ++ (tag.render ++ closing false ++ (first.render ++ rest))))) := by
    simp [Hole.front]
  have tagged : ∀ c ∈ (tag.render ++ closing false ++ (first.render ++ rest)).head?, c = '<' := by
    obtain ⟨_, _, render, -⟩ := tag.exists_render
    simp [render]
  rw [String.toList_ofList, text, hole.source.scan_into hole.tag_eq,
    hole.first.run hole.firstSeparated _ _ _ tagged, tag.run_content false] at scan
  simp only [Mode.afterTag, Bool.false_eq_true, if_false] at scan
  rw [first.run separated _ _ _ bracket] at scan
  obtain ⟨_, rfl, inRoot⟩ := Scan.exists_of_prepend scan
  obtain ⟨_, rfl, atTag⟩ := Scan.exists_of_prepend inRoot
  obtain ⟨_, rfl, inTag⟩ := Scan.exists_of_prepend atTag
  obtain ⟨tokens, rfl, behind⟩ := Scan.exists_of_prepend inTag
  have outermost := hole.source.outermost
  rw [hole.undeclared] at outermost
  simp only [List.append_assoc, Builder.addTokens_append_eq_ok_iff] at grows
  obtain ⟨_, prolog, _, root, _, front, _, opens, middle, inside, grows⟩ := grows
  obtain rfl := Except.ok.inj (prolog.symm.trans
    (Builder.addTokens_outside rfl hole.source.passes.outside))
  obtain rfl := Except.ok.inj (root.symm.trans
    (outermost.addTokens_tag_iff.mpr ⟨hole.reading, rfl⟩))
  have ready := @Builder.ready_afterTag [] nestingLimit [] 0 _ hole.tag hole.source.start
    outermost.entities_eq hole.reading
  rw [hole.reading.settles rfl] at ready
  have ready' := (hole.firstReads.grownBy ready front).ready ready
  obtain rfl := Except.ok.inj (opens.symm.trans
    (ready'.addTokens_tag_iff.mpr ⟨reading, rfl⟩))
  have ready'' := @Builder.ready_afterTag [] nestingLimit hole.scope 0 _ tag (hole.source.start +
    byteLength (hole.tag.render ++ closing false) + byteLength hole.first.render)
    ready'.entities_eq reading
  rw [reading.settles rfl] at ready''
  exact ⟨_, _, tokens, _, middle, grown, _, behind, ready'', firstReads.grownBy ready'' inside,
    grows, closed⟩

/-- How a start tag and the content behind it are read up to an end tag: the start tag stands for an
empty element, and the end tag closes its parent, or the end tag closes what the start tag opens. -/
inductive ReadUpTo (scope : Scope) (parent : QualifiedName) (ending : EndSource) (tag : TagSource)
    (inner : Content) : Bool → Prop where
  | empty {nodes : Nat → List Node} (matching : ending.name.name.Matches parent)
      (reads : (Content.empty tag inner).Reads [] nestingLimit scope 0 nodes 0) :
      ReadUpTo scope parent ending tag inner true
  | filled (reading : tag.Reading [] nestingLimit scope 0) {nodes : Nat → List Node}
      (matching : ending.name.name.Matches tag.name.name)
      (reads : inner.Reads [] nestingLimit reading.inner 0 nodes 0) :
      ReadUpTo scope parent ending tag inner false

/-- Behind a start tag in the hole and some content stands another start tag, of which only the name
is known. Up to the end of the content behind it, it is read as a start tag of that name. -/
theorem Hole.rescan (hole : Hole) {tag : TagSource}
    (reading : tag.Reading [] nestingLimit hole.scope 0) {first : Content}
    {firstNodes : Nat → List Node}
    (firstReads : first.Reads [] nestingLimit reading.inner 0 firstNodes 0)
    (separated : first.Separated) {written : WrittenName} {body : List Char}
    (unbracketed : '<' ∉ body) (ends : ∀ c ∈ body.head?, isNameCharacter c = false)
    (filled : body ≠ []) {content : Content} (apart : content.Separated) (ending : EndSource)
    (rest : List Char) {tree : Tree}
    (success : Tree.parse (String.ofList (hole.front ++ (tag.render ++ closing false ++
      (first.render ++ ('<' :: written.run ++
        (body ++ (content.render ++ (ending.render ++ rest)))))))) = .ok tree) :
    ∃ (changed : TagSource) (selfClosing : Bool) (inner : Content),
      changed.name.name = written.name ∧ inner.Separated ∧
      '<' :: written.run ++ (body ++ content.render) =
        changed.render ++ closing selfClosing ++ inner.render ∧
      ReadUpTo reading.inner tag.name.name ending changed inner selfClosing := by
  obtain ⟨text, more, split, textless, marked, moreSeparated⟩ := content.exists_gap apart
  have bracket : ∀ c ∈ (ending.render ++ rest).head?, c = '<' := by
    simp [EndSource.render]
  have bracket' := more.head_render marked bracket
  have bodyless : '<' ∉ body ++ text := by
    simp [unbracketed, textless]
  have ends' : ∀ c ∈ ((body ++ text) ++ (more.render ++ (ending.render ++ rest))).head?,
      isNameCharacter c = false := by
    obtain ⟨d, tail, rfl⟩ := List.exists_cons_of_ne_nil filled
    exact ends
  have whole : body ++ (content.render ++ (ending.render ++ rest)) =
      (body ++ text) ++ (more.render ++ (ending.render ++ rest)) := by
    rw [split]
    simp
  rw [whole] at success
  obtain ⟨offset, place, tokens, builder, grown, final, nodes, scan, ready, growth, grows,
    closed⟩ := hole.exists_inside reading firstReads separated (by simp) success
  have readyGrown := growth.ready ready
  rcases exists_startTag_gap bodyless bracket' ends' scan with broken |
    ⟨changed, selfClosing, gap, inside, later, named, gapSeparated, text_eq, rfl, behind⟩
  · exact absurd closed (broken.stays_open (readsTexts_nil _) readyGrown grows)
  have closes (place : Nat) : (Mode.content inside).step.Takes place ending.render rest _ :=
    Reader.takes_contentStep_iff.mpr (.endTag ending)
  rw [more.run moreSeparated _ _ _ bracket,
    Scan.run_of_takes (Extent.stopsIn_document _) (closes _)]
    at behind
  obtain ⟨_, rfl, atEnd⟩ := Scan.exists_of_prepend behind
  obtain ⟨last, rfl, -⟩ := Scan.exists_of_prepend atEnd
  have innerSeparated : (gap.append more).Separated :=
    (Content.separated_append marked).mpr ⟨gapSeparated, moreSeparated⟩
  have render : '<' :: written.run ++ (body ++ content.render) =
      changed.render ++ closing selfClosing ++ (gap.append more).render := by
    rw [split, Content.render_append, ← List.append_assoc _ gap.render, ← text_eq]
    simp
  refine ⟨changed, selfClosing, gap.append more, named, innerSeparated, render, ?_⟩
  rw [← List.append_assoc (gap.tokens _), ← Content.tokens_append] at grows
  simp only [Builder.addTokens_append_eq_ok_iff, Builder.addTokens_singleton] at grows
  obtain ⟨opened, opens, grown', inside, closed', closes', -⟩ := grows
  cases selfClosing with
  | true =>
      have success' : grown.addTokens nestingLimit ((Content.empty changed
          (gap.append more)).tokens offset) = .ok grown' :=
        Builder.addTokens_append_eq_ok_iff.mpr ⟨opened, opens, inside⟩
      obtain ⟨nodes', after, reads⟩ :=
        Content.exists_reads (readsTexts_nil _) _ readyGrown success'
      obtain rfl := reads.settles rfl
      have matching := (Builder.Ready.closes_iff
        (growth.trans ready.opened (reads.grownBy readyGrown success')) _).mp ⟨closed', closes'⟩
      exact .empty matching reads
  | false =>
      obtain ⟨reading', rfl⟩ := readyGrown.addTokens_tag_iff.mp opens
      obtain ⟨nodes', after, reads⟩ :=
        Content.exists_reads (readsTexts_nil _) _ (readyGrown.afterTag reading') inside
      have matching := (Builder.Ready.closes_iff
        (reads.grownBy (readyGrown.afterTag reading') inside) _).mp ⟨closed', closes'⟩
      rw [reading'.settles rfl] at reads
      obtain rfl := reads.settles rfl
      exact .filled reading' matching reads

/-- A declaration whose signature has a value, taken apart around the value. -/
structure SignedSource (scope : Scope) where
  tag : TagSource
  ending : EndSource
  reading : tag.Reading [] nestingLimit scope 0
  matching : ending.name.name.Matches tag.name.name
  named : tag.name.name.localName = "start" ∧ reading.uri?.getD "" = ""
  first : Content
  signature : ElementSource
  rest : Content
  firstNodes : Nat → List Node
  signatureReading : Nat → Element
  restNodes : Nat → List Node
  firstReads : first.Reads [] nestingLimit reading.inner 0 firstNodes 0
  signatureReads : signature.Reads [] nestingLimit reading.inner 0 signatureReading 0
  restReads : rest.Reads [] nestingLimit reading.inner 0 restNodes 0
  firstSeparated : first.Separated
  separated : signature.inner.Separated
  restSeparated : rest.Separated
  signed : signature.tag.name.name.localName = "signature"
  earlier : List AttributeSource
  attr : AttributeSource
  later : List AttributeSource
  attributes_eq : signature.tag.attributes = earlier ++ attr :: later

namespace SignedSource

variable {scope : Scope} (source : SignedSource scope)

/-- The declaration as it is written. -/
def element : ElementSource :=
  .filled source.tag (source.first.append (source.signature.before source.rest)) source.ending

/-- What is written in front of the value. -/
def opened : List Char :=
  (source.tag.render ++ closing false) ++ (source.first.render ++ ('<' ::
    source.signature.tag.name.run ++ (source.earlier.flatMap AttributeSource.render ++
      source.attr.held)))

/-- What is written behind the value in its tag. -/
def tail : List Char :=
  source.attr.quote :: (source.later.flatMap AttributeSource.render ++ source.signature.tag.gap)

/-- What is written behind the value. -/
def closed : List Char :=
  source.tail ++ (source.signature.behindTag ++ (source.rest.render ++ source.ending.render))

theorem render_element : source.element.render =
    source.opened ++ ((source.attr.spare ++ source.attr.value) ++ source.closed) := by
  have opening := source.attr.held_append_spare
  have tag_eq : source.signature.tag.render = '<' :: source.signature.tag.name.run ++
      (source.earlier.flatMap AttributeSource.render ++ (source.attr.held ++ (source.attr.spare ++
        (source.attr.value ++ source.tail)))) := by
    rw [TagSource.render, source.attributes_eq]
    simp [AttributeSource.render, ← opening, tail]
  rw [element, ElementSource.render, filledRender, Content.render_append,
    ElementSource.render_before, source.signature.render_eq_tag, tag_eq]
  simp [opened, closed]

/-- A declaration with other content in it. -/
theorem isDeclaration {content : Content} {nodes : Nat → List Node}
    (reads : content.Reads [] nestingLimit source.reading.inner 0 nodes 0)
    (separated : content.Separated) :
    IsDeclaration scope (filledRender source.tag content.render source.ending) := by
  refine ⟨⟨.filled source.tag content source.ending, _, separated,
    source.reading.reads_filled reads source.matching, fun place => ?_⟩, rfl⟩
  rw [← Element.isNamed_shape, source.reading.shape_element, Shape.isNamed, source.named.1,
    source.named.2]
  rfl

/-- No bracket opens around the value in its tag. -/
theorem unbracketed {written : List Char} (unbracketed : '<' ∉ written) (selfClosing : Bool) :
    '<' ∉ source.earlier.flatMap AttributeSource.render ++ source.attr.held ++
      (written ++ (source.tail ++ closing selfClosing)) := by
  obtain ⟨tail, tag_eq, plain⟩ := source.signature.tag.exists_unbracketed selfClosing
  have opening := source.attr.held_append_spare
  rw [TagSource.render, source.attributes_eq] at tag_eq
  simp only [List.flatMap_append, List.flatMap_cons, AttributeSource.render, ← opening,
    List.cons_append, List.cons.injEq, true_and] at tag_eq
  subst tag_eq
  simp only [List.mem_append, List.mem_cons, not_or, SignedSource.tail] at plain ⊢
  simp only [plain, unbracketed, not_false_eq_true, and_self]

/-- A blank stands behind the name of the signature. -/
theorem exists_blank (rest : List Char) :
    ∃ c more, source.earlier.flatMap AttributeSource.render ++ source.attr.held ++ rest =
      c :: more ∧ isSpace c = true := by
  cases source.earlier with
  | nil =>
      obtain ⟨c, more, led⟩ := List.exists_cons_of_ne_nil source.attr.lead_filled
      have blank := source.attr.lead_blank c (by simp [led])
      rw [AttributeSource.held, led]
      exact ⟨c, _, rfl, blank⟩
  | cons attr earlier =>
      obtain ⟨c, more, led⟩ := List.exists_cons_of_ne_nil attr.lead_filled
      have blank := attr.lead_blank c (by simp [led])
      rw [List.flatMap_cons, AttributeSource.render, AttributeSource.opening, led]
      exact ⟨c, _, rfl, blank⟩

/-- No name is that of a declaration and that of its signature. -/
theorem not_matches {name : QualifiedName} (one : name.Matches source.tag.name.name)
    (two : name.Matches source.signature.tag.name.name) : False := by
  have same := one.2.symm.trans two.2
  rw [source.named.1, source.signed] at same
  exact absurd same (by decide)

end SignedSource

/-- Whatever is written for the value, the signature is read up to the next end tag as a start tag
of its name and content behind it. -/
theorem Hole.rescan_signature (hole : Hole) (source : SignedSource hole.scope) {written : List Char}
    (unbracketed : '<' ∉ written) {selfClosing : Bool} {content : Content}
    (apart : content.Separated) {ending : EndSource} {rest : List Char}
    (closed : source.closed =
      source.tail ++ (closing selfClosing ++ (content.render ++ (ending.render ++ rest))))
    {tree : Tree} (success : Tree.parse (String.ofList
      (hole.text (source.opened ++ (written ++ source.closed)))) = .ok tree) :
    ∃ (changed : TagSource) (selfClosing : Bool) (inner : Content),
      changed.name.name = source.signature.tag.name.name ∧ inner.Separated ∧
      source.opened ++ (written ++ source.closed) = source.tag.render ++ closing false ++
        (source.first.render ++ (changed.render ++ closing selfClosing ++
          (inner.render ++ (ending.render ++ rest)))) ∧
      ReadUpTo source.reading.inner source.tag.name.name ending changed inner selfClosing := by
  obtain ⟨c, more, blank, space⟩ :=
    source.exists_blank (written ++ (source.tail ++ closing selfClosing))
  have ends : ∀ d ∈ (source.earlier.flatMap AttributeSource.render ++ source.attr.held ++
      (written ++ (source.tail ++ closing selfClosing))).head?, isNameCharacter d = false := by
    simpa [blank] using not_isNameCharacter_of_isSpace space
  have text : hole.text (source.opened ++ (written ++ source.closed)) = hole.front ++
      (source.tag.render ++ closing false ++ (source.first.render ++
        ('<' :: source.signature.tag.name.run ++ (source.earlier.flatMap AttributeSource.render ++
          source.attr.held ++ (written ++ (source.tail ++ closing selfClosing)) ++
            (content.render ++ (ending.render ++ (rest ++ hole.behind))))))) := by
    rw [closed]
    simp [text, SignedSource.opened]
  rw [text] at success
  obtain ⟨changed, selfClosing', inner, named, separated, render, upTo⟩ :=
    hole.rescan source.reading source.firstReads source.firstSeparated
      (source.unbracketed unbracketed selfClosing) ends (by simp [blank]) apart _ _ success
  refine ⟨changed, selfClosing', inner, named, separated, ?_, upTo⟩
  rw [← List.append_assoc _ inner.render, ← render, closed]
  simp [SignedSource.opened]

/-- Whatever is written for the value, the document is refused unless a declaration is written. -/
theorem Hole.isDeclaration_of_parse (hole : Hole) (source : SignedSource hole.scope)
    {written : List Char} (unbracketed : '<' ∉ written) {tree : Tree}
    (success : Tree.parse (String.ofList
      (hole.text (source.opened ++ (written ++ source.closed)))) = .ok tree) :
    IsDeclaration hole.scope (source.opened ++ (written ++ source.closed)) := by
  cases signature_eq : source.signature with
  | empty tag =>
      have closed : source.closed = source.tail ++
          (closing true ++ (source.rest.render ++ (source.ending.render ++ []))) := by
        rw [SignedSource.closed, signature_eq, List.append_nil]
        rfl
      obtain ⟨changed, selfClosing, inner, named, separated, render, upTo⟩ :=
        hole.rescan_signature source unbracketed source.restSeparated closed success
      rw [render]
      cases upTo with
      | empty matching reads =>
          have declares := source.isDeclaration (source.firstReads.append reads)
            ((Content.separated_append rfl).mpr ⟨source.firstSeparated, separated⟩)
          simpa [filledRender, Content.render_append, Content.render] using declares
      | filled reading matching reads =>
          rw [named] at matching
          exact (source.not_matches source.matching matching).elim
  | filled tag content ending =>
      have tag_eq : source.signature.tag = tag := by
        rw [signature_eq]
        rfl
      have closed : source.closed = source.tail ++ (closing false ++ (content.render ++
          (ending.render ++ (source.rest.render ++ source.ending.render)))) := by
        rw [SignedSource.closed, signature_eq, ElementSource.behindTag]
        simp
      have reads := source.signatureReads
      have contentSeparated := source.separated
      rw [signature_eq] at reads contentSeparated
      obtain ⟨-, -, -, matching, -⟩ := reads.filled_inv
      rw [← tag_eq] at matching
      obtain ⟨changed, selfClosing, inner, named, separated, render, upTo⟩ :=
        hole.rescan_signature source unbracketed contentSeparated closed success
      rw [render]
      cases upTo with
      | empty matching' reads => exact (source.not_matches matching' matching).elim
      | filled reading matching' reads =>
          have whole : (Content.filled changed inner ending source.rest).Reads [] nestingLimit
              source.reading.inner 0 _ 0 :=
            .filled reading (by rwa [reading.settles rfl]) matching' source.restReads
          have declares := source.isDeclaration (source.firstReads.append whole)
            ((Content.separated_append rfl).mpr ⟨source.firstSeparated, separated,
              source.restSeparated⟩)
          simpa [filledRender, Content.render_append, Content.render] using declares

end RunSigning.Markup
