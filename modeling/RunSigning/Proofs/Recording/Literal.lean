import RunSigning.Proofs.Recording.Range

/-
This file finds the text that is replaced when a value is rewritten. It is what stands between the
quotes of the old value if the equals sign with the blanks around it takes at most 255 bytes.
Otherwise it begins in front of the quote, among the blanks.
-/

namespace RunSigning.Markup
open RunSigning.Text

namespace AttributeSource

variable (attr : AttributeSource)

theorem byteLength_equals : byteLength attr.equals = attr.equals.length :=
  byteLength_eq_length fun c member => attr.utf8Size_equals c (List.mem_append_left _ member)

/-- A short equals sign is counted as a whole. -/
theorem held_of_fits (fits : byteLength attr.equals ≤ 255) : attr.held = attr.opening := by
  rw [byteLength_equals] at fits
  rw [held, opening, Nat.min_eq_right fits, List.take_of_length_le (by simp)]
  simp

/-- Of a long equals sign 256 bytes are counted, and none of them is a quote. -/
theorem held_of_long (long : 255 < byteLength attr.equals) :
    attr.held = attr.lead ++ attr.name.run ++ attr.equals.take 256 ∧
      ∀ c ∈ attr.held.getLast?, c ≠ '\'' := by
  rw [byteLength_equals] at long
  have held_eq : attr.held = attr.lead ++ attr.name.run ++ attr.equals.take 256 := by
    rw [held, Nat.min_eq_left (Nat.le_of_lt long), List.take_append_of_le_length long]
  refine ⟨held_eq, fun c last => ?_⟩
  have filled : attr.equals.take 256 ≠ [] := by
    rw [ne_eq, List.take_eq_nil_iff]
    rintro (impossible | empty)
    · cases impossible
    · simp [empty] at long
  rw [held_eq, List.getLast?_append_of_ne_nil _ filled] at last
  have member := List.mem_of_mem_take (List.mem_of_getLast? last)
  rw [equals, List.mem_append, List.mem_cons] at member
  rintro rfl
  rcases member with before | equal | after
  · cases attr.before_blank _ before
  · cases equal
  · cases attr.after_blank _ after

/-- What is not counted stands behind. -/
theorem length_held_of_long (long : 255 < byteLength attr.equals) :
    byteLength attr.held + byteLength attr.equals = byteLength attr.opening + 255 := by
  obtain ⟨held_eq, -⟩ := attr.held_of_long long
  have quote := byteLength_quote attr.quote_fits
  have counted : byteLength (attr.equals.take 256) = 256 := by
    rw [byteLength_equals] at long
    rw [byteLength_eq_length fun c member => attr.utf8Size_equals c
      (List.mem_append_left _ (List.mem_of_mem_take member)), List.length_take]
    omega
  rw [held_eq, opening]
  simp only [byteLength_append, counted, quote]
  omega

end AttributeSource

end RunSigning.Markup

namespace RunSigning
open RunSigning.Text RunSigning.Markup

/-- The value attribute in the start tag of a signature, as it is written in the text of a
document. -/
structure Document.ValueSite (document : Document) (signature : Element) where
  front : List Char
  tag : TagSource
  earlier : List AttributeSource
  attr : AttributeSource
  later : List AttributeSource
  behind : List Char
  text_eq : document.text.toList = front ++ (tag.render ++ behind)
  start_eq : signature.tag.span.start = byteLength front
  attributes_eq : tag.attributes = earlier ++ attr :: later
  named : attr.name.name.IsPlain "value"
  only : ∀ other ∈ tag.attributes, other.name.name.IsPlain "value" → other = attr

namespace Document.ValueSite

variable {document : Document} {signature : Element} (site : document.ValueSite signature)

/-- The text in front of the attribute. -/
def before : List Char :=
  site.front ++ ('<' :: site.tag.name.run ++ site.earlier.flatMap AttributeSource.render)

/-- The text behind the attribute. -/
def after : List Char :=
  site.later.flatMap AttributeSource.render ++ (site.tag.gap ++ site.behind)

/-- The span between the two quotes. -/
def literal : Span where
  start := byteLength (site.before ++ site.attr.opening)
  stop := byteLength (site.before ++ site.attr.opening) + byteLength site.attr.value

theorem text_eq_around : document.text.toList =
    site.before ++ (site.attr.render ++ site.after) := by
  rw [site.text_eq, TagSource.render, site.attributes_eq, before, after]
  simp

/-- The value stands between two quotes. -/
theorem exists_quotes : ∃ first last, document.text.toList =
    first ++ site.attr.quote :: (site.attr.value ++ site.attr.quote :: last) ∧
      site.literal = ⟨byteLength first + 1, byteLength first + 1 + byteLength site.attr.value⟩ := by
  refine ⟨site.before ++ (site.attr.lead ++ site.attr.name.run ++ site.attr.equals), site.after,
    ?_, ?_⟩
  · rw [site.text_eq_around, AttributeSource.render, AttributeSource.opening]
    simp
  · have quote := byteLength_quote site.attr.quote_fits
    rw [literal, AttributeSource.opening, ← List.append_assoc, byteLength_append _ [_], quote]

/-- If the equals sign is short, the quote stands where the value begins. -/
theorem quoteBefore_literal :
    quoteBefore document.text.toList site.literal.start = site.attr.quote := by
  obtain ⟨first, last, text, literal⟩ := site.exists_quotes
  rw [text, literal, quoteBefore_append site.attr.quote_fits]

/-- If the equals sign is long, no single quote stands where the replaced text begins. -/
theorem quoteBefore_of_long (long : 255 < byteLength site.attr.equals) :
    quoteBefore document.text.toList (byteLength (site.before ++ site.attr.held)) = '"' := by
  obtain ⟨held_eq, unquoted⟩ := site.attr.held_of_long long
  have split : document.text.toList = (site.before ++ site.attr.held) ++ (site.attr.spare ++
      (site.attr.value ++ (site.attr.quote :: site.after))) := by
    rw [site.text_eq_around, AttributeSource.render, ← site.attr.held_append_spare]
    simp
  have filled : site.attr.held ≠ [] := by
    rw [held_eq]
    simp [site.attr.lead_filled]
  rw [quoteBefore, split, before_append, List.getLast?_append_of_ne_nil _ filled, if_neg]
  intro single
  exact unquoted '\'' single rfl

end Document.ValueSite

section
variable {document : Document} {index : Nat} {declaration : Declaration} {signature : Element}
  {existing : Attribute}

/-- The value of the signature of a declaration is written in the text, and it fits if its equals
sign is short. -/
theorem Markup.DeclarationSite.exists_valueSite
    (place : DeclarationSite document index declaration.element)
    (undeclared : place.source.entities = [])
    (signed : declaration.signature? = some signature)
    (valued : signature.attribute? "value" = some existing) :
    ∃ site : document.ValueSite signature,
      existing.valueSpan = (site.attr.written (byteLength site.before)).valueSpan ∧
      (byteLength site.attr.equals ≤ 255 → place.site.SignatureFits) := by
  obtain ⟨named, earlier, later, split, others⟩ := declaration.element.child?_eq_some signed
  obtain ⟨tag, inner, ending, reading, nodes, located, written, -, -⟩ :=
    place.site.exists_child split (not_forall_before_nil undeclared _)
  let child := place.site.ofChild reading located written
  obtain ⟨front, attr, back, attributes, plain, only, span⟩ := child.exists_value valued
  have text : document.text.toList =
      child.front ++ (child.source.tag.render ++ (child.source.behindTag ++ child.behind)) := by
    rw [← place.text_site, ← place.site.text_ofChild reading located written, Site.text,
      Site.around, ElementSource.render_eq_tag]
    simp [child]
  refine ⟨⟨child.front, child.source.tag, front, attr, back, _, text, child.span_start, attributes,
    plain, only⟩, span, fun fits => ?_⟩
  refine place.site.signatureFits_of_located undeclared located written split named others ?_
  intro other member otherPlain
  rw [only other member otherPlain]
  exact fits

end

/-- What is replaced when a value is rewritten. In a document without document type declaration it
is exactly what stands between the two quotes of the old value, and the new one is escaped for
these quotes, if the equals sign with the blanks around it takes at most 255 bytes; then every value
that a document may hold is accepted. If it takes more bytes, the replaced text begins that much
earlier, and the new value is escaped for double quotes, whatever the quotes are. -/
theorem Document.recording_literal {document : Document} {index : Nat} {declaration : Declaration}
    {signature : Element} (plain : document.tree.hasDoctype = false)
    (declared : document.declarations[index]? = some declaration)
    (signed : declaration.signature? = some signature)
    (valued : (signature.attribute? "value").isSome = true) :
    ∃ (site : document.ValueSite signature) (first last : List Char),
      document.text.toList =
        first ++ site.attr.quote :: (site.attr.value ++ site.attr.quote :: last) ∧
      site.literal =
        ⟨byteLength first + 1, byteLength first + 1 + byteLength site.attr.value⟩ ∧
      ∀ value,
        (byteLength site.attr.equals ≤ 255 →
          document.recording declaration value =
            .ok ⟨site.literal, escapeString site.attr.quote value⟩ ∧
          ((∃ changed, document.recorded declaration value = .ok changed) ↔
            ∀ c ∈ value.toList, isAllowed c = true)) ∧
        (255 < byteLength site.attr.equals → ∃ start,
          start + byteLength site.attr.equals = site.literal.start + 255 ∧
          document.recording declaration value =
            .ok ⟨⟨start, site.literal.stop⟩, escapeString '"' value⟩) := by
  obtain ⟨existing, found⟩ := Option.isSome_iff_exists.mp valued
  have none := declaredEntities_eq_nil document.spelled plain
  have formed := Entities.wellFormed_of_eq_nil none
  have own : declaration.IsOwn (declaredEntities document.text) := by
    rw [none]
    exact declaration.isOwn_nil
  obtain ⟨place, entities⟩ := exists_ownSite formed declared own
  rw [← entities] at formed own none
  obtain ⟨site, span, fits⟩ := place.exists_valueSite none signed found
  obtain ⟨first, last, text, literal⟩ := site.exists_quotes
  have placed := (Declaration.isPlaced_iff
    (isPlaced_declaration (List.mem_of_getElem? declared))).mpr (.inl (by rw [signed]; rfl))
  have recording (value : String) : document.recording declaration value =
      .ok ⟨existing.valueSpan,
        escapeString (quoteBefore document.text.toList existing.valueSpan.start) value⟩ := by
    rw [Document.recording, if_pos placed, record, Declaration.record_rewrite signed found]
  rw [site.attr.valueSpan_eq site.named] at span
  refine ⟨site, first, last, text, literal, fun value => ⟨fun short => ⟨?_, ?_⟩, fun long => ?_⟩⟩
  · have whole : existing.valueSpan = site.literal := by
      rw [span, site.attr.held_of_fits short, ValueSite.literal, byteLength_append]
    rw [recording, whole, site.quoteBefore_literal]
  · rw [recorded_eq placed]
    exact place.exists_apply_iff formed own.element (fits short)
  · refine ⟨byteLength (site.before ++ site.attr.held), ?_, ?_⟩
    · have length := site.attr.length_held_of_long long
      rw [ValueSite.literal, byteLength_append, byteLength_append]
      dsimp only
      omega
    · have quote := site.quoteBefore_of_long long
      rw [byteLength_append] at quote ⊢
      rw [recording, span, quote, ValueSite.literal, byteLength_append]

theorem Document.recording_literal_sampleConfig :
    ∃ signature, sampleConfig.declarations[0]? = some (sampleDeclaration 0) ∧
      (sampleDeclaration 0).signature? = some signature ∧
      ∃ site : sampleConfig.ValueSite signature, byteLength site.attr.equals ≤ 255 ∧
        sampleConfig.recording (sampleDeclaration 0) "it's" =
          .ok ⟨site.literal, escapeString site.attr.quote "it's"⟩ := by
  have valued : ((sampleDeclaration 0).signature?.bind (·.attribute? "value")).isSome = true := by
    decide +kernel
  obtain ⟨existing, found⟩ := Option.isSome_iff_exists.mp valued
  obtain ⟨signature, signed, held⟩ := Option.bind_eq_some_iff.mp found
  obtain ⟨site, first, last, text, -, recording⟩ :=
    Document.recording_literal (show sampleConfig.tree.hasDoctype = false by decide +kernel)
      (getElem?_sampleConfig 0) signed (by rw [held]; rfl)
  obtain ⟨short, -⟩ := recording "it's"
  have fits : byteLength site.attr.equals ≤ 255 := by
    have length := congrArg byteLength site.text_eq_around
    have small : byteLength sampleConfig.text.toList ≤ 255 := by decide +kernel
    rw [byteLength_append, byteLength_append, AttributeSource.render, AttributeSource.opening]
      at length
    simp only [byteLength_append] at length
    omega
  exact ⟨signature, getElem?_sampleConfig 0, signed, site, fits, (short fits).1⟩

/-- The tree that characters spell. -/
def Markup.Tree.parseList (text : List Char) : Except Failure Tree :=
  Builder.empty.addScan nestingLimit (Builder.follow nestingLimit) (Scan.document text) >>=
    Builder.finish

theorem Markup.Tree.parse_ofList (text : List Char) :
    Tree.parse (String.ofList text) = Tree.parseList text := by
  rw [parse, String.toList_ofList]
  rfl

theorem eq_ok_get {result : Except Failure Tree}
    (accepted : result.toOption.isSome = true) : result = .ok (result.toOption.get accepted) := by
  cases result with
  | ok tree => rfl
  | error failure => cases accepted

/-- The document that characters spell. -/
def Document.ofList (text : List Char)
    (accepted : (Tree.parseList text).toOption.isSome = true) : Document where
  text := String.ofList text
  tree := (Tree.parseList text).toOption.get accepted
  spelled := (Tree.parse_ofList text).trans (eq_ok_get accepted)

/-- A value is recorded by writing new characters in the place of old ones. -/
theorem Document.recorded_ofList {front old new behind : List Char} {declaration : Declaration}
    {value : String} {edit : TextEdit}
    {before : (Tree.parseList (front ++ (old ++ behind))).toOption.isSome = true}
    (placed : declaration.isPlaced (Document.ofList _ before).text.toList = true)
    (record_eq : (Document.ofList _ before).record declaration value = edit)
    (start : edit.span.start = byteLength front)
    (stop : edit.span.stop = byteLength front + byteLength old)
    (written : edit.replacement.toList = new)
    (after : (Tree.parseList (front ++ (new ++ behind))).toOption.isSome = true) :
    (Document.ofList _ before).recorded declaration value = .ok (Document.ofList _ after) := by
  subst written
  rw [Document.recorded_eq placed, record_eq]
  exact Document.apply_eq_ok_iff.mpr (TextEdit.apply_append start stop)

/-- The text in front of the blanks behind the equals sign of a value. -/
def spacedFront : List Char :=
  "<config><start name=\"a\"><signature value=".toList

/-- The text behind the value. -/
def spacedBehind : List Char :=
  "'/></start></config>".toList

/-- A config with a value in single quotes, behind an equals sign and 255 blanks. -/
def spacedText : List Char :=
  (spacedFront ++ List.replicate 255 ' ') ++ ("'old".toList ++ spacedBehind)

set_option maxRecDepth 10000 in
def spacedConfig : Document := Document.ofList spacedText (by decide +kernel)

theorem spacedConfig_spans :
    spacedConfig.declarations.map (fun declaration =>
      (declaration.signature?.bind (·.attribute? "value")).map Attribute.valueSpan) =
        [some ⟨296, 300⟩] := by
  decide +kernel

/-- The replaced text begins with the quote, so the value is left without one and refused. -/
theorem Document.exists_refused_literal :
    ∃ (document : Document) (declaration : Declaration) (edit : TextEdit),
      document.tree.hasDoctype = false ∧ declaration ∈ document.declarations ∧
      ((declaration.signature?.bind (·.attribute? "value")).isSome = true) ∧
      (∀ c ∈ "S".toList, isAllowed c = true) ∧
      document.recording declaration "S" = .ok edit ∧
      slice edit.span document.text.toList = "'old".toList ∧
      ∀ changed, document.apply edit ≠ .ok changed := by
  obtain ⟨declaration, single, view⟩ := List.map_eq_singleton_iff.mp spacedConfig_spans
  obtain ⟨existing, found, span⟩ := Option.map_eq_some_iff.mp view
  obtain ⟨signature, signed, valued⟩ := Option.bind_eq_some_iff.mp found
  have declared : declaration ∈ spacedConfig.declarations := by simp [single]
  have text : spacedConfig.text.toList = spacedText := String.toList_ofList
  have placed := (Declaration.isPlaced_iff (Document.isPlaced_declaration declared)).mpr
    (.inl (by rw [signed]; rfl))
  have recording : spacedConfig.recording declaration "S" = .ok ⟨⟨296, 300⟩, "S"⟩ := by
    rw [Document.recording, if_pos placed, Document.record,
      Declaration.record_rewrite signed valued, span, text]
    decide +kernel
  have front : 296 = byteLength (spacedFront ++ List.replicate 255 ' ') := by decide +kernel
  have back : 300 = byteLength (spacedFront ++ List.replicate 255 ' ') +
      byteLength "'old".toList := by decide +kernel
  refine ⟨spacedConfig, declaration, _, by decide +kernel, declared, by rw [found]; rfl,
    by decide, recording, ?_, ?_⟩
  · rw [text]
    exact slice_append front back
  · intro changed success
    have refused : (Tree.parseList ((spacedFront ++ List.replicate 255 ' ') ++
        ("S".toList ++ spacedBehind))).toOption = none := by
      decide +kernel
    have applied : TextEdit.apply ⟨⟨296, 300⟩, "S"⟩ spacedConfig.text = .ok (String.ofList
        ((spacedFront ++ List.replicate 255 ' ') ++ ("S".toList ++ spacedBehind))) :=
      TextEdit.apply_append front back
    rw [Document.apply_eq_ok_iff, applied] at success
    have spelled := changed.spelled
    rw [← Except.ok.inj success, Tree.parse_ofList] at spelled
    rw [spelled] at refused
    cases refused

end RunSigning
