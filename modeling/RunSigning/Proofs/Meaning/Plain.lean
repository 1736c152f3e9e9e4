import RunSigning.Proofs.Grammar.Allowed
import RunSigning.Proofs.Meaning.Escape
import RunSigning.Proofs.Meaning.Tree

/-
This file describes elements without namespaces whose values are escaped. Such an element reads
back with its name and its values, and as a document when it stands alone.
-/

namespace RunSigning.Markup
open RunSigning.Text

/-- A name without qualifier. -/
structure QualifiedName.IsPlain (name : QualifiedName) (localName : String) : Prop where
  unqualified : name.qualifier = ""
  localName_eq : name.localName = localName

namespace QualifiedName.IsPlain

variable {name : QualifiedName} {localName : String}

theorem declares (plain : name.IsPlain localName) (undeclaring : localName ≠ "xmlns") :
    name.declares = false := by
  rw [QualifiedName.declares, plain.unqualified, plain.localName_eq, Bool.or_eq_false_iff,
    beq_eq_false_iff_ne, beq_eq_false_iff_ne]
  exact ⟨by decide, undeclaring⟩

theorem binding (plain : name.IsPlain localName) (undeclaring : localName ≠ "xmlns")
    (value : String) : name.binding value = [] := by
  rw [QualifiedName.binding, plain.unqualified, plain.localName_eq, if_neg (by decide),
    if_neg undeclaring]

theorem admits (plain : name.IsPlain localName) (undeclaring : localName ≠ "xmlns")
    (bindings : Scope) (value : String) : bindings.Admits name value := by
  rw [Scope.Admits, plain.unqualified, plain.localName_eq, if_neg (by decide), if_neg undeclaring]
  trivial

theorem attributeUri (plain : name.IsPlain localName) (scope : Scope) :
    scope.attributeUri? name = some none := by
  rw [Scope.attributeUri?, plain.unqualified]
  rfl

end QualifiedName.IsPlain

/-- A written name without qualifier that declares no namespace. -/
structure PlainName where
  written : WrittenName
  localName : String
  plain : written.name.IsPlain localName
  undeclaring : localName ≠ "xmlns"

/-- A text that is a name without colon. -/
def PlainName.ofText (text : String) (named : ∀ c ∈ text.toList, isNameCharacter c = true)
    (spells : QualifiedName.ofRun? text.toList = some ⟨none, text⟩) (undeclaring : text ≠ "xmlns") :
    PlainName :=
  ⟨⟨text.toList, ⟨none, text⟩, named, spells⟩, text, ⟨rfl, rfl⟩, undeclaring⟩

theorem space_ne_nil : [' '] ≠ [] := List.cons_ne_nil _ _

theorem space_blank : ∀ c ∈ [' '], isSpace c = true := by decide

theorem doubleQuote_quoted : '"' = '\'' ∨ '"' = '"' := .inr rfl

/-- An attribute with a plain name, one space before it and an escaped value. -/
structure EscapedAttribute where
  name : PlainName
  quote : Char
  value : String
  quoted : quote = '\'' ∨ quote = '"'
  allowed : AllAllowed value.toList

namespace EscapedAttribute

def source (held : EscapedAttribute) : AttributeSource where
  lead := [' ']
  name := held.name.written
  before := []
  after := []
  quote := held.quote
  value := escape held.quote held.value.toList
  lead_filled := space_ne_nil
  lead_blank := space_blank
  before_blank := List.forall_mem_nil _
  after_blank := List.forall_mem_nil _
  quote_fits := held.quoted
  value_fits := escape_fits held.quoted held.allowed

/-- What the attribute is read as. -/
def shape (held : EscapedAttribute) : AttributeShape :=
  ⟨held.name.written.name, none, held.value⟩

theorem name_localName (held : EscapedAttribute) :
    held.name.written.name.localName = held.name.localName :=
  held.name.plain.localName_eq

theorem render_source (held : EscapedAttribute) : held.source.render =
    ' ' :: (held.name.written.run ++ '=' :: held.quote ::
      (escape held.quote held.value.toList ++ [held.quote])) := by
  simp [AttributeSource.render, AttributeSource.opening, AttributeSource.equals, source]

end EscapedAttribute

/-- Attributes with escaped values read back. -/
theorem readsAttributes_escaped (entities : Entities) (bindings : Scope)
    (attributes : List EscapedAttribute) :
    ReadsAttributes entities nestingLimit bindings 0
      (attributes.map fun held => (held.source, held.value)) bindings 0 := by
  induction attributes with
  | nil => exact .nil bindings 0
  | cons held attributes ih =>
      have plain := held.name.plain
      have undeclaring := held.name.undeclaring
      have reads (offset : Nat) : normalizeValue entities nestingLimit 0
          ⟨offset, held.source.value⟩ = .ok (held.value, 0) :=
        (normalizeValue_escape entities 0 offset held.quote held.value.toList).trans
          (by rw [String.ofList_toList])
      refine .cons reads (plain.admits undeclaring _ _) ?_
      rw [show held.source.name.name.binding held.value = [] from plain.binding undeclaring _,
        List.append_nil]
      exact ih

theorem settledShapes_escaped (scope : Scope) (attributes : List EscapedAttribute) :
    settledShapes scope (attributes.map fun held => (held.source, held.value)) =
      attributes.map EscapedAttribute.shape := by
  induction attributes with
  | nil => rfl
  | cons held attributes ih =>
      have plain := held.name.plain
      have declares : held.source.name.name.declares = false :=
        plain.declares held.name.undeclaring
      have uri : scope.attributeUri? held.source.name.name = some none :=
        plain.attributeUri scope
      rw [settledShapes] at ih ⊢
      rw [List.map_cons, List.filter_cons_of_pos (by rw [declares]; rfl), List.map_cons, ih, uri]
      rfl

/-- An element with a plain name and escaped values. One without content may be written as a
single tag. -/
structure PlainElement where
  name : PlainName
  attributes : List EscapedAttribute
  inner : Content
  isShort : Bool
  distinct : (attributes.map fun held => held.name.localName).Nodup
  unfilled : isShort = true → inner = .nil

namespace PlainElement

variable (plain : PlainElement)

def tag : TagSource := ⟨plain.name.written, plain.attributes.map EscapedAttribute.source, [],
  List.forall_mem_nil _⟩

def source : ElementSource :=
  if plain.isShort then .empty plain.tag
  else .filled plain.tag plain.inner ⟨plain.name.written, [], List.forall_mem_nil _⟩

theorem inner_source : plain.source.inner = plain.inner := by
  rw [source]
  split
  · rw [plain.unfilled ‹_›]
    rfl
  · rfl

theorem render_tag : plain.tag.render =
    '<' :: (plain.name.written.run ++ plain.attributes.flatMap fun held =>
      held.source.render) := by
  simp [TagSource.render, tag, List.flatMap_map]

theorem render_source : plain.source.render = plain.tag.render ++
    (if plain.isShort then ['/', '>']
    else '>' :: (plain.inner.render ++ '<' :: '/' :: (plain.name.written.run ++ ['>']))) := by
  rw [source]
  split
  · rfl
  · simp [ElementSource.render, filledRender, closing, EndSource.render]

/-- The tag is read without any namespace. -/
def reading (entities : Entities) : plain.tag.Reading entities nestingLimit [] 0 where
  valued := plain.attributes.map fun held => (held.source, held.value)
  bindings := []
  after := 0
  uri? := none
  sources := by rw [List.map_map]; rfl
  unreserved := by
    rw [show plain.tag.name.name.qualifier = "" from plain.name.plain.unqualified]
    decide
  reads := readsAttributes_escaped entities [] plain.attributes
  knows := by
    intro pair member _
    obtain ⟨held, -, rfl⟩ := List.mem_map.1 member
    exact congrArg Option.isSome (held.name.plain.attributeUri _)
  distinct := by
    have keys : (plain.attributes.map EscapedAttribute.shape).map AttributeShape.key =
        (plain.attributes.map fun held => held.name.localName).map fun localName =>
          (localName, none) := by
      rw [List.map_map, List.map_map]
      refine List.map_congr_left fun held _ => ?_
      exact congrArg (·, none) held.name_localName
    rw [settledShapes_escaped, keys]
    exact List.Pairwise.map _ (fun _ _ different same => different (Prod.mk.inj same).1)
      plain.distinct
  resolves := by
    rw [Scope.elementUri?, show plain.tag.name.name.qualifier = "" from
      plain.name.plain.unqualified]
    rfl

/-- The element has the name and the attributes that were meant. -/
structure Describes (element : Element) : Prop where
  name : element.tag.name = plain.name.written.name
  uri? : element.tag.uri? = none
  attributes : element.tag.attributes.map Attribute.shape =
    plain.attributes.map EscapedAttribute.shape

namespace Describes

variable {plain} {element : Element} (describes : plain.Describes element)
include describes

theorem isNamed (name : String) : element.isNamed name = (plain.name.localName == name) := by
  rw [Element.isNamed, describes.name, plain.name.plain.localName_eq, describes.uri?]
  simp

theorem attribute? (name : String) : (element.attribute? name).map Attribute.value =
    (plain.attributes.find? fun held => held.name.localName == name).map EscapedAttribute.value := by
  have viewed : (element.attribute? name).map Attribute.value =
      ((element.tag.attributes.map Attribute.shape).find? fun shape =>
        shape.name.localName == name && shape.uri? == none).map AttributeShape.value := by
    rw [List.find?_map, Option.map_map]
    rfl
  rw [viewed, describes.attributes, List.find?_map, Option.map_map]
  simp only [Function.comp_def, EscapedAttribute.shape, EscapedAttribute.name_localName,
    BEq.rfl, Bool.and_true]

end Describes

/-- An element reads as it was meant if its content does. -/
theorem exists_reads {entities : Entities} {nodes : Nat → List Node}
    (inside : plain.inner.Reads entities nestingLimit [] 0 nodes 0) :
    ∃ reading, plain.source.Reads entities nestingLimit [] 0 reading 0 ∧
      ∀ place, plain.Describes (reading place) ∧ elements (reading place).children =
        elements (nodes (place + byteLength (plain.tag.render ++ closing false))) := by
  have describes (offset length : Nat) (selfClosing : Bool) (children : List Node) :
      plain.Describes ⟨(plain.reading entities).tag offset length selfClosing, children⟩ :=
    ⟨rfl, rfl, ((plain.reading entities).map_shape_attributes offset).trans
      (settledShapes_escaped _ _)⟩
  rw [source]
  split
  · rename_i short
    rw [plain.unfilled short] at inside
    cases inside
    exact ⟨_, .empty (plain.reading entities), fun place => ⟨describes _ _ _ _, rfl⟩⟩
  · refine ⟨_, .filled (plain.reading entities) inside ⟨rfl, rfl⟩, fun place =>
      ⟨describes _ _ _ _, ?_⟩⟩
    rw [elements_reverse, elements_joinNodes]
    simp

end PlainElement

/-- Nothing is declared in front of a tag. -/
theorem takes_opening_root (root : ElementSource) :
    Reader.opening.Takes 0 [] root.render () := by
  obtain ⟨c, tail, render, -⟩ := root.exists_tail
  obtain ⟨n, run, name, start⟩ := root.tag.name.exists_cons
  have unmarked : startsWith "\ufeff".toList root.render = false := by
    rw [render]
    rfl
  have undeclared : startsWith "<?xml ".toList root.render = false := by
    have other : '?' ≠ n := by
      rintro rfl
      exact absurd start (by decide)
    rw [render, name, show "<?xml ".toList = ['<', '?', 'x', 'm', 'l', ' '] from rfl]
    simp [startsWith, strip?, other]
  simp only [Reader.opening, Reader.takes_sees_bind_iff, List.nil_append, unmarked,
    Reader.optionally, Bool.false_eq_true, if_false]
  refine Reader.Takes.bind [] [] (Reader.takes_pure_iff.2 ⟨rfl, rfl⟩) ?_
  rw [Reader.takes_sees_bind_iff, List.nil_append, undeclared]
  exact Reader.takes_pure_iff.2 ⟨rfl, rfl⟩

theorem run_epilog_nil (offset : Nat) :
    Scan.run .document .epilog ⟨offset, []⟩ = ⟨[], none⟩ := by
  rw [Scan.run]
  rfl

/-- The document in which nothing stands around the root element. -/
def DocumentSource.ofRoot (root : ElementSource) (separated : root.inner.Separated) :
    DocumentSource where
  opening := []
  prolog := []
  prologTokens := []
  mode := .prolog
  root := root
  back := []
  asides := []
  opens := by rw [List.append_nil]; exact takes_opening_root root
  passes := .stay _ _ _
  lands := .inl rfl
  separated := separated
  ends := run_epilog_nil

/-- An element alone spells a tree if it has a reading. -/
theorem ElementSource.Reads.parse {root : ElementSource} {reading : Nat → Element} {after : Nat}
    (reads : root.Reads [] nestingLimit [] 0 reading after) (separated : root.inner.Separated) :
    Tree.parse (String.ofList root.render) =
      .ok ((DocumentSource.ofRoot root separated).tree (reading 0)) := by
  have parses := ((DocumentSource.ofRoot root separated).parse_eq_ok_iff
    (Entities.wellFormed_of_eq_nil rfl)).2 ⟨reading, after, reads, rfl⟩
  rwa [show (DocumentSource.ofRoot root separated).render = root.render from
    List.append_nil _] at parses

end RunSigning.Markup
