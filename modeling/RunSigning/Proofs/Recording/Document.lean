import RunSigning.Proofs.Meaning.Tree
import RunSigning.Proofs.Recording.Place

/-
This file records a value in a start declaration of a document. The edited text spells the tree
with another declaration in the place of this one, if a document may hold the value.
-/

namespace RunSigning
open RunSigning.Text

/-- The document of a text is the one with this text. -/
theorem Document.ofText_eq_ok_iff {text : String} {document : Document} :
    Document.ofText text = .ok document ↔ document.text = text := by
  obtain ⟨text', tree', spelled'⟩ := document
  rw [Document.ofText]
  split
  · rename_i tree spelled
    constructor
    · intro equal
      cases equal
      rfl
    · rintro rfl
      obtain rfl := Except.ok.inj (spelled.symm.trans spelled')
      rfl
  · rename_i failure failed
    constructor
    · intro equal
      cases equal
    · rintro rfl
      cases failed.symm.trans spelled'

/-- An edit of a document is accepted if the edited text is the one of the changed document. -/
theorem Document.apply_eq_ok_iff {document changed : Document} {edit : TextEdit} :
    document.apply edit = .ok changed ↔ edit.apply document.text = .ok changed.text := by
  rw [Document.apply]
  cases applied : edit.apply document.text with
  | error error => simp
  | ok edited =>
      dsimp only
      cases spelled : Document.ofText edited with
      | ok other =>
          obtain rfl := Document.ofText_eq_ok_iff.mp spelled
          dsimp only
          constructor
          · intro equal
            obtain rfl := Except.ok.inj equal
            rfl
          · intro same
            have accepted := Document.ofText_eq_ok_iff.mpr (Except.ok.inj same).symm
            rw [Except.ok.inj (spelled.symm.trans accepted)]
      | error fault =>
          simp only [Except.ok.injEq, reduceCtorEq, false_iff]
          intro same
          have accepted := Document.ofText_eq_ok_iff.mpr same.symm
          rw [spelled] at accepted
          cases accepted

/-- Where an edit begins the text can be split. -/
theorem TextEdit.isSome_of_apply {edit : TextEdit} {text edited : String}
    (success : edit.apply text = .ok edited) :
    (splitAt? edit.span.start text.toList).isSome = true := by
  rw [TextEdit.apply, around?] at success
  cases split : splitAt? edit.span.start text.toList with
  | some parts => rfl
  | none =>
      rw [split] at success
      split at success
      · rename_i found
        split at found <;> simp at found
      · cases success

end RunSigning

namespace RunSigning.Markup
open RunSigning.Text

namespace DocumentSource

/-- The site of the root element. -/
def site (source : DocumentSource) {reading : Nat → Element}
    (reads : source.root.Reads source.entities nestingLimit [] 0 reading 0) :
    Site source.entities [] (reading source.start) where
  front := source.opening ++ source.prolog
  behind := source.back
  source := source.root
  reading := reading
  separated := source.separated
  reads := reads
  element_eq := congrArg reading (byteLength_append _ _)

theorem text_site (source : DocumentSource) {reading : Nat → Element}
    (reads : source.root.Reads source.entities nestingLimit [] 0 reading 0) :
    (source.site reads).text = source.render := by
  simp [Site.text, Site.around, site, render]

theorem root?_tree (source : DocumentSource) (root : Element) :
    (source.tree root).root? = some root := by
  have outside : (source.prologTokens.filterMap Token.node?).findSome? Node.element? = none := by
    have none := elements_prolog source.passes.outside
    rw [elements, List.filterMap_eq_nil_iff] at none
    exact List.findSome?_eq_none_iff.mpr none
  rw [Tree.root?, tree, List.findSome?_append, outside]
  rfl

/-- The start declarations of a document are those among the children of its root element. -/
theorem declarations_tree (source : DocumentSource) (root : Element) :
    (source.tree root).declarations =
      ((elements root.children).filter (·.isNamed "start")).map Declaration.mk := by
  rw [Tree.declarations, source.root?_tree]
  rfl

/-- The nodes around the root element are no elements. -/
theorem isElement_prolog (source : DocumentSource) :
    ∀ shape ∈ (source.prologTokens.filterMap Token.node?).map Node.shape,
      shape.isElement = false := by
  have none := map_shape_elements (source.prologTokens.filterMap Token.node?)
  rw [elements_prolog source.passes.outside, List.map_nil, eq_comm, List.filter_eq_nil_iff] at none
  simpa using none

/-- The shapes of all nodes of a tree. -/
theorem map_shape_tree (source : DocumentSource) (root : Element) :
    (source.tree root).nodes.map Node.shape =
      (source.prologTokens.filterMap Token.node?).map Node.shape ++
        root.shape :: (source.asides.map AsideSource.node).map Node.shape := by
  rw [tree, List.map_append, List.map_cons]
  rfl

/-- An edit at the site of the root element writes another document. -/
theorem exists_withRoot (source : DocumentSource) (formed : source.entities.WellFormed)
    {reading : Nat → Element}
    (reads : source.root.Reads source.entities nestingLimit [] 0 reading 0)
    {edit : String → TextEdit}
    {Result : String → Span → ElementSource → (Nat → Element) → Prop}
    (edits : (source.site reads).Edits edit Result) :
    ∃ slot : Slot, (∀ value, (edit value).apply (String.ofList source.render) =
        .ok (String.ofList (slot.fill value))) ∧
      ∀ value, AllAllowed value.toList → ∃ root named separated reading' spot,
        (source.withRoot root named separated).render = slot.fill value ∧
        slot.spot value = spot.movedBy source.start ∧
        root.Reads source.entities nestingLimit [] 0 reading' 0 ∧
        Result value spot root reading' ∧
        Tree.parse (String.ofList (slot.fill value)) = .ok (source.tree (reading' source.start)) := by
  obtain ⟨slot, applies, accepts⟩ := edits
  refine ⟨slot.within (source.opening ++ source.prolog) source.back, ?_, ?_⟩
  · intro value
    have applies := applies value
    rw [source.text_site] at applies
    rw [applies, slot.fill_within]
    rfl
  · intro value allowed
    obtain ⟨root, reading', render, ⟨named, separated, accepted⟩, result⟩ := accepts value allowed
    have whole : (source.withRoot root named separated).render =
        (slot.within (source.opening ++ source.prolog) source.back).fill value := by
      rw [slot.fill_within, ← render]
      simp [DocumentSource.render, withRoot]
    refine ⟨root, named, separated, reading', slot.spot value, whole, ?_, accepted, result, ?_⟩
    · rw [slot.spot_within, byteLength_append]
      rfl
    · rw [← whole]
      exact ((source.withRoot root named separated).parse_eq_ok_iff formed).mpr
        ⟨reading', 0, accepted, rfl⟩

end DocumentSource

/-- A document was written, and its tree is read off what was written. -/
theorem exists_documentReads {document : Document}
    (formed : (declaredEntities document.text).WellFormed) :
    ∃ (source : DocumentSource) (root : Nat → Element), source.render = document.text.toList ∧
      source.entities = declaredEntities document.text ∧
      source.root.Reads source.entities nestingLimit [] 0 root 0 ∧
      document.tree = source.tree (root source.start) := by
  obtain ⟨source, written⟩ := Tree.exists_documentSource document.spelled formed
  have text : String.ofList source.render = document.text := by
    rw [written, String.ofList_toList]
  have entities : source.entities = declaredEntities document.text := by
    rw [← source.declaredEntities_render, text]
  have spelled := document.spelled
  rw [← text, source.parse_eq_ok_iff (entities ▸ formed)] at spelled
  obtain ⟨root, after, reads, tree_eq⟩ := spelled
  obtain rfl := reads.settles rfl
  exact ⟨source, root, written, entities, reads, tree_eq⟩

/-- A start declaration where it is written in a document. -/
structure DeclarationSite (document : Document) (index : Nat) (element : Element) where
  source : DocumentSource
  written : source.render = document.text.toList
  root : Nat → Element
  rootReads : source.root.Reads source.entities nestingLimit [] 0 root 0
  tree_eq : document.tree = source.tree (root source.start)
  tag : TagSource
  inner : Content
  ending : EndSource
  reading : tag.Reading source.entities nestingLimit [] 0
  nodes : Nat → List Node
  earlier : List Element
  later : List Element
  located : Located source.entities nestingLimit reading.inner 0 inner nodes 0
    (byteLength ((source.site rootReads).front ++ (tag.render ++ closing false))) earlier element
    later
  root_eq : (source.site rootReads).source = .filled tag inner ending
  matching : ending.name.name.Matches tag.name.name
  shape_eq : (root source.start).shape = .element tag.name.name reading.uri?
    (settledShapes reading.inner reading.valued) (childShapes (located.firstNodes 0) ++
      element.shape :: childShapes (located.restNodes 0))
  named : element.isNamed "start" = true
  placed : (earlier.filter (·.isNamed "start")).length = index

/-- A start declaration is found where it is written. -/
theorem exists_declarationSite {document : Document} {source : DocumentSource}
    (written : source.render = document.text.toList) {root : Nat → Element}
    (rootReads : source.root.Reads source.entities nestingLimit [] 0 root 0)
    (tree_eq : document.tree = source.tree (root source.start)) {index : Nat}
    {declaration : Declaration} (declared : document.declarations[index]? = some declaration)
    (own : ¬ ∀ bound, source.entities.Before bound → declaration.element.tag.span.start < bound) :
    ∃ place : DeclarationSite document index declaration.element,
      place.source = source ∧ place.root = root := by
  have children : ((elements (root source.start).children).filter (·.isNamed "start"))[index]? =
      some declaration.element := by
    rw [Document.declarations, tree_eq, source.declarations_tree, List.getElem?_map,
      Option.map_eq_some_iff] at declared
    obtain ⟨element, found, rfl⟩ := declared
    exact found
  obtain ⟨earlier, later, split, named, placed⟩ := exists_split_of_filter children
  obtain ⟨tag, inner, ending, reading, nodes, located, root_eq, matching, shape_eq⟩ :=
    (source.site rootReads).exists_child split own
  exact ⟨⟨source, written, root, rootReads, tree_eq, tag, inner, ending, reading, nodes, earlier,
    later, located, root_eq, matching, shape_eq, named, placed⟩, rfl, rfl⟩

namespace DeclarationSite

variable {document : Document} {index : Nat} {element : Element}

/-- The site of a declaration. -/
def site (place : DeclarationSite document index element) :
    Site place.source.entities place.reading.inner element :=
  (place.source.site place.rootReads).ofChild place.reading place.located place.root_eq

theorem text_site (place : DeclarationSite document index element) :
    place.site.text = document.text.toList := by
  rw [site, Site.text_ofChild, place.source.text_site, place.written]

/-- The tokens of a declaration stand together among those of the document. -/
theorem tokens_infix (place : DeclarationSite document index element) :
    place.site.source.tokens (byteLength place.site.front) <:+:
      (Scan.document document.text.toList).tokens := by
  rw [← place.written, place.source.scan]
  refine List.IsInfix.trans ?_ (List.infix_append' _ _ _)
  have front : byteLength place.site.front = place.source.start +
      byteLength (place.tag.render ++ closing false) + byteLength place.located.first.render := by
    simp only [site, Site.ofChild, DocumentSource.site, DocumentSource.start, byteLength_append]
  rw [front]
  exact place.located.tokens_infix place.root_eq

/-- In front of a declaration stands the name of the root element. -/
theorem exists_front (place : DeclarationSite document index element) :
    ∃ c tail, place.site.front = place.source.opening ++ (place.source.prolog ++
      ('<' :: place.source.root.tag.name.run ++ c :: tail)) ∧ EndsName c := by
  obtain ⟨c, tail, render, ends⟩ := place.tag.exists_tail false
  have tag_eq : place.source.root.tag = place.tag := congrArg ElementSource.tag place.root_eq
  have whole (rest : List Char) := congrArg
    (fun middle => place.source.opening ++ place.source.prolog ++ middle ++ rest) render
  refine ⟨c, tail ++ place.located.first.render, (whole place.located.first.render).trans ?_, ends⟩
  rw [tag_eq]
  simp

/-- Only values that a document may hold are recorded. -/
theorem allAllowed_of_edits (place : DeclarationSite document index element)
    {edit : String → TextEdit} {Result : String → Span → ElementSource → (Nat → Element) → Prop}
    (edits : place.site.Edits edit Result) {value edited : String} {tree : Tree}
    (applied : (edit value).apply document.text = .ok edited)
    (spelled : Tree.parse edited = .ok tree) : AllAllowed value.toList := by
  obtain ⟨slot, applies, -⟩ := edits
  have applies := applies value
  rw [place.text_site, String.ofList_toList, applied] at applies
  obtain rfl := Except.ok.inj applies
  obtain ⟨tokens, scan⟩ := Tree.exists_scan spelled
  obtain ⟨c, tail, front, ends⟩ := place.exists_front
  have text : place.site.around (slot.fill value) =
      place.source.opening ++ (place.source.prolog ++ ('<' :: place.source.root.tag.name.run ++
        (c :: tail ++ (slot.opened ++ (escape slot.quote value.toList ++
          (slot.closed ++ place.site.behind)))))) := by
    rw [Site.around, front, Slot.fill]
    simp
  rw [String.toList_ofList, text] at scan
  have allowed := place.source.allAllowed_of_scan (by simpa using ends.not_isNameCharacter) scan
  simp only [allAllowed_append] at allowed
  intro d member
  by_contra forbidden
  exact forbidden (allowed.2.2.1 d
    (mem_escape_of_not_allowed member (Bool.eq_false_iff.mpr forbidden)))

/-- What recording a value in a declaration does to the root element. -/
inductive RecordsIn (place : DeclarationSite document index element) (value : String) (spot : Span)
    (source : ElementSource) (reading : Nat → Element) : Prop where
  | intro {signatureUri? : Option String} {changed : Shape} {declarationSpot : Span} {lead : Nat}
      {declarationReading : Nat → Element} {before behind : List Element}
      (plain : element.tag.name.qualifier = "" → signatureUri? = element.tag.uri?)
      (fits : place.source.entities = [] → signatureUri?.getD "" = "" →
        place.source.root.DeclarationsFit (place.root place.source.start).shape →
          source.DeclarationsFit (reading place.source.start).shape)
      (placed : signatureUri?.getD "" = "" → HoldsSignatureAt declarationSpot declarationReading)
      (spot_eq : spot = declarationSpot.movedBy lead)
      (split : elements (reading place.source.start).children =
        before ++ declarationReading (place.source.start + lead) :: behind)
      (unmoved : before.map Element.shape = place.earlier.map Element.shape)
      (records : Shape.Records value signatureUri? element.shape changed)
      (shape : ∀ place', (declarationReading place').shape = changed)
      (after : (reading place.source.start).shape = .element place.tag.name.name
        place.reading.uri? (settledShapes place.reading.inner place.reading.valued)
          (childShapes (place.located.firstNodes 0) ++
            changed :: childShapes (place.located.restNodes 0)))

/-- Recording a value in a declaration changes the root element around it. -/
theorem edits_root (place : DeclarationSite document index element) {edit : String → TextEdit}
    (edits : place.site.Edits edit (Recorded place.source.entities element)) :
    (place.source.site place.rootReads).Edits edit place.RecordsIn := by
  refine (edits.ofChild place.matching).imp ?_
  rintro value spot source reading ⟨⟨plain, fits, placed, records, after⟩, rfl, shapes, children⟩
  rename_i childSource childReading childSpot lead signatureUri? changed
  have shape := shapes place.source.start 0
  rw [after] at shape
  obtain ⟨before, behind, split, unmoved⟩ := children place.source.start
  refine .intro plain ?_ placed rfl split unmoved records after shape
  intro undeclared plainUri before
  rw [place.shape_eq] at before
  rw [shape]
  have sources : place.source.root.inner.sources = place.located.first.sources ++
      place.located.source :: place.located.rest.sources := by
    have inside := congrArg Content.sources place.located.content_eq
    rw [Content.sources_append, ElementSource.sources_before] at inside
    exact (congrArg (fun held => held.inner.sources) place.root_eq).trans inside
  have sources' : (ElementSource.filled place.tag (place.located.first.append
      (childSource.before place.located.rest)) place.ending).inner.sources =
        place.located.first.sources ++ childSource :: place.located.rest.sources := by
    rw [ElementSource.inner, Content.sources_append, ElementSource.sources_before]
  have named : element.shape.isNamed "start" = true := by
    rw [element.isNamed_shape]
    exact place.named
  have named' : changed.isNamed "start" = true := by
    rw [records.isNamed_eq]
    exact named
  refine before.swap sources sources' ?_ (Shape.isElement_of_isNamed named)
    (Shape.isElement_of_isNamed named') (fits undeclared plainUri)
  rw [length_filter_childShapes, place.located.firstReads.length_sources undeclared]

/-- The changed document spells the recorded tree. -/
theorem RecordsIn.recordedAt {place : DeclarationSite document index element} {value : String}
    {spot : Span} {source : ElementSource} {reading : Nat → Element}
    (records : place.RecordsIn value spot source reading) :
    ∃ signatureUri?, (element.tag.name.qualifier = "" → signatureUri? = element.tag.uri?) ∧
      document.tree.RecordedAt value signatureUri? index
        (place.source.tree (reading place.source.start)) := by
  obtain ⟨plain, -, -, -, -, -, records, -, after⟩ := records
  rename_i signatureUri? changed _ _ _ _ _
  have placed : ((childShapes (place.located.firstNodes 0)).filter (·.isNamed "start")).length =
      index := by
    have earlier := place.located.earlier_eq
    rw [place.located.firstReads.childShapes_eq 0, filter_isNamed_childShapes, earlier,
      List.length_map, place.placed]
  have declares : element.shape.isNamed "start" = true := by
    rw [element.isNamed_shape]
    exact place.named
  have before := place.source.map_shape_tree (place.root place.source.start)
  rw [← place.tree_eq, place.shape_eq] at before
  have after' := place.source.map_shape_tree (reading place.source.start)
  rw [after] at after'
  have doctype : (place.source.tree (reading place.source.start)).hasDoctype =
      document.tree.hasDoctype := by
    rw [place.tree_eq]
    rfl
  exact ⟨signatureUri?, plain, .intro place.source.isElement_prolog placed declares records before
    after' doctype⟩

/-- Names are read off shapes, also in a filter. -/
theorem map_shape_filter (items : List Element) (name : String) :
    (items.filter (·.isNamed name)).map Element.shape =
      (items.map Element.shape).filter (·.isNamed name) := by
  rw [List.filter_map]
  congr 2
  funext element
  exact (element.isNamed_shape name).symm

/-- The changed declaration stands in the place of the old one, with its signature where the value
was written. -/
theorem RecordsIn.exists_declaration {place : DeclarationSite document index element}
    {value : String} {spot : Span} {source : ElementSource} {reading : Nat → Element}
    (records : place.RecordsIn value spot source reading)
    (unqualified : element.tag.name.qualifier = "") {changed : Document}
    (tree_eq : changed.tree = place.source.tree (reading place.source.start)) :
    ∃ declaration signature existing, changed.declarations[index]? = some declaration ∧
      declaration.signature? = some signature ∧ signature.attribute? "value" = some existing ∧
        existing.valueSpan = spot.movedBy place.source.start := by
  obtain ⟨plain, -, placed, spot_eq, split, unmoved, records, shape, -⟩ := records
  rename_i signatureUri? new newSpot lead newReading before behind
  have named := place.named
  rw [Element.isNamed, Bool.and_eq_true, beq_iff_eq, beq_iff_eq] at named
  obtain ⟨signature, existing, found, valued, span⟩ :=
    placed (by rw [plain unqualified]; exact named.2) (place.source.start + lead)
  refine ⟨⟨newReading (place.source.start + lead)⟩, signature, existing, ?_, found, valued, ?_⟩
  · have count : (before.filter (·.isNamed "start")).length = index := by
      rw [← place.placed, ← List.length_map Element.shape, ← List.length_map Element.shape,
        map_shape_filter, map_shape_filter, unmoved]
    have declares : (newReading (place.source.start + lead)).isNamed "start" = true := by
      rw [← Element.isNamed_shape, shape, records.isNamed_eq, element.isNamed_shape]
      exact place.named
    rw [Document.declarations, Tree.declarations, tree_eq, place.source.root?_tree]
    dsimp only
    rw [List.getElem?_map, show (reading place.source.start).children.filterMap Node.element? = _
      from split, List.filter_append, List.filter_cons, if_pos declares,
      List.getElem?_append_right (Nat.le_of_eq count), count, Nat.sub_self]
    rfl
  · rw [span, spot_eq, Span.movedBy_movedBy]

/-- What recording looks at can be cut out of the text. -/
theorem isPlaced (place : DeclarationSite document index element)
    {Result : String → Span → ElementSource → (Nat → Element) → Prop}
    (edits : place.site.Edits (document.record ⟨element⟩) Result) :
    Declaration.isPlaced ⟨element⟩ document.text.toList = true := by
  rw [Declaration.isPlaced]
  cases found : Declaration.signature? ⟨element⟩ with
  | none =>
      dsimp only
      have start : element.tag.span.start = byteLength place.site.front := place.site.span_start
      have stop : element.tag.span.stop = byteLength place.site.front +
          byteLength place.site.source.render := by
        rw [place.site.span_eq]
      rw [← place.text_site, Site.text, Site.around, around?_append start stop]
      rfl
  | some signature =>
      dsimp only
      cases valued : signature.attribute? "value" with
      | none => rfl
      | some existing =>
          obtain ⟨slot, applies, -⟩ := edits
          have applies := applies ""
          rw [Document.record, Declaration.record_rewrite found valued, place.text_site,
            String.ofList_toList] at applies
          exact TextEdit.isSome_of_apply applies

theorem edits (place : DeclarationSite document index element)
    (own : element.IsOwn place.source.entities) (fits : place.site.SignatureFits) :
    place.site.Edits (document.record ⟨element⟩) (Recorded place.source.entities element) := by
  have edits := place.site.edits_record own fits
  rwa [place.text_site] at edits

/-- All values have the same place in the text. A document with another root element holds the
value. -/
theorem exists_slot (place : DeclarationSite document index element)
    (formed : place.source.entities.WellFormed) (own : element.IsOwn place.source.entities)
    (fits : place.site.SignatureFits) :
    ∃ slot : Slot, (∀ value, (document.record ⟨element⟩ value).apply document.text =
        .ok (String.ofList (slot.fill value))) ∧
      ∀ value, AllAllowed value.toList → ∃ (changed : Document) (root : ElementSource)
          (named : root.tag.name = place.source.root.tag.name) (separated : root.inner.Separated)
          (reading : Nat → Element) (spot : Span),
        changed.text = String.ofList (slot.fill value) ∧
        (place.source.withRoot root named separated).render = slot.fill value ∧
        slot.spot value = spot.movedBy place.source.start ∧
        root.Reads place.source.entities nestingLimit [] 0 reading 0 ∧
        place.RecordsIn value spot root reading ∧
        changed.tree = place.source.tree (reading place.source.start) := by
  obtain ⟨slot, applies, holds⟩ :=
    place.source.exists_withRoot formed place.rootReads (place.edits_root (place.edits own fits))
  refine ⟨slot, ?_, ?_⟩
  · rwa [place.written, String.ofList_toList] at applies
  · intro value allowed
    obtain ⟨root, named, separated, reading, spot, render, spot_eq, reads, records, spelled⟩ :=
      holds value allowed
    exact ⟨⟨_, _, spelled⟩, root, named, separated, reading, spot, rfl, render, spot_eq, reads,
      records, rfl⟩

/-- A value is recorded exactly if a document may hold it. -/
theorem exists_apply_iff (place : DeclarationSite document index element)
    (formed : place.source.entities.WellFormed) (own : element.IsOwn place.source.entities)
    (fits : place.site.SignatureFits) {value : String} :
    (∃ changed, document.apply (document.record ⟨element⟩ value) = .ok changed) ↔
      AllAllowed value.toList := by
  constructor
  · rintro ⟨changed, success⟩
    exact place.allAllowed_of_edits (place.edits own fits)
      (Document.apply_eq_ok_iff.mp success) changed.spelled
  · intro allowed
    obtain ⟨slot, applies, holds⟩ := place.exists_slot formed own fits
    obtain ⟨changed, -, -, -, -, -, text, -⟩ := holds value allowed
    refine ⟨changed, Document.apply_eq_ok_iff.mpr ?_⟩
    rw [applies, text]

end DeclarationSite

end RunSigning.Markup
