import RunSigning.Proofs.Meaning.Doctype
import RunSigning.Proofs.Recording.Document
import RunSigning.Proofs.Recording.Shift

/-
This file takes a declaration out of its document. What stands around it is a hole, and every
declaration that can be read in the scope of the hole makes a document of it.
-/

namespace RunSigning.Markup
open RunSigning.Text

/-- A start declaration that is written somewhere in a document without declared entities. -/
structure DeclarationSource (scope : Scope) where
  source : ElementSource
  reading : Nat → Element
  separated : source.inner.Separated
  reads : source.Reads [] nestingLimit scope 0 reading 0
  named : ∀ place, (reading place).isNamed "start" = true

/-- Whether a text is a start declaration. -/
def IsDeclaration (scope : Scope) (text : List Char) : Prop :=
  ∃ declaration : DeclarationSource scope, declaration.source.render = text

/-- A start declaration that is located in content, by itself. -/
def DeclarationSource.ofLocated {scope : Scope} {content : Content} {nodes : Nat → List Node}
    {after place : Nat} {earlier later : List Element} {element : Element}
    (located : Located [] nestingLimit scope 0 content nodes after place earlier element later)
    (separated : located.source.inner.Separated) (named : element.isNamed "start" = true) :
    DeclarationSource scope where
  source := located.source
  reading := located.reading
  separated := separated
  reads := located.reads.2.1
  named := fun place => by
    rw [← Element.isNamed_shape, located.sourceReads.shape_eq place _, located.element_eq,
      Element.isNamed_shape, named]

/-- The tags of a root element with children, in a document without declared entities. -/
structure RootTags where
  source : DocumentSource
  undeclared : source.entities = []
  tag : TagSource
  tag_eq : tag.name = source.root.tag.name
  ending : EndSource
  reading : tag.Reading [] nestingLimit [] 0
  matching : ending.name.name.Matches tag.name.name

/-- The bindings in which the children are read. -/
def RootTags.scope (tags : RootTags) : Scope := tags.reading.inner

/-- The text with something between the tags. -/
def RootTags.around (tags : RootTags) (middle : List Char) : List Char :=
  tags.source.opening ++ (tags.source.prolog ++ (tags.tag.render ++ closing false ++
    (middle ++ (tags.ending.render ++ tags.source.back))))

/-- A document with declarations is written with tags around the content in which they stand. -/
theorem exists_rootTags {document : Document} (plain : document.tree.hasDoctype = false)
    (declared : document.declarations ≠ []) :
    ∃ (tags : RootTags) (content : Content) (nodes : Nat → List Node) (place : Nat),
      content.Separated ∧ content.Reads [] nestingLimit tags.scope 0 nodes 0 ∧
      document.text = String.ofList (tags.around content.render) ∧
      document.declarations =
        ((elements (nodes place)).filter (·.isNamed "start")).map Declaration.mk := by
  have none := declaredEntities_eq_nil document.spelled plain
  obtain ⟨source, root, written, entities, reads, tree_eq⟩ :=
    exists_documentReads (Entities.wellFormed_of_eq_nil none)
  have undeclared : source.entities = [] := entities.trans none
  rw [undeclared] at reads
  have declarations_eq : document.declarations = _ :=
    (congrArg Tree.declarations tree_eq).trans (source.declarations_tree _)
  have separated := source.separated
  cases root_eq : source.root with
  | empty tag =>
      rw [root_eq] at reads
      obtain ⟨reading, reading_eq⟩ := reads.empty_inv
      rw [declarations_eq, reading_eq] at declared
      simp at declared
  | filled tag inner ending =>
      rw [root_eq] at reads separated
      obtain ⟨reading, nodes, inside, matching, reading_eq⟩ := reads.filled_inv
      rw [reading.settles rfl] at inside
      have tag_eq : tag.name = source.root.tag.name := by
        rw [root_eq]
        rfl
      have text : document.text = String.ofList source.render := by
        rw [written, String.ofList_toList]
      rw [DocumentSource.render, root_eq, ElementSource.render, filledRender] at text
      refine ⟨⟨source, undeclared, tag, tag_eq, ending, reading, matching⟩, inner,
        nodes, source.start + byteLength (tag.render ++ closing false), separated, inside, ?_, ?_⟩
      · rw [text, RootTags.around]
        simp
      · rw [declarations_eq, reading_eq, elements_reverse, elements_joinNodes]
        simp

/-- What is written in a document around a start declaration. -/
structure Hole extends RootTags where
  first : Content
  rest : Content
  firstNodes : Nat → List Node
  restNodes : Nat → List Node
  firstReads : first.Reads [] nestingLimit reading.inner 0 firstNodes 0
  restReads : rest.Reads [] nestingLimit reading.inner 0 restNodes 0
  firstSeparated : first.Separated
  restSeparated : rest.Separated

/-- Elements have the same names wherever they are read. -/
theorem Content.Reads.length_filter_elements {entities : Entities} {room : Nat} {scope : Scope}
    {references after : Nat} {content : Content} {nodes : Nat → List Node}
    (reads : content.Reads entities room scope references nodes after) (name : String)
    (place place' : Nat) :
    ((elements (nodes place)).filter (·.isNamed name)).length =
      ((elements (nodes place')).filter (·.isNamed name)).length := by
  rw [← List.length_map Element.shape, ← List.length_map Element.shape,
    DeclarationSite.map_shape_filter, DeclarationSite.map_shape_filter,
    reads.map_shape_elements_eq place place']

namespace Hole

/-- The text in front of the declaration. -/
def front (hole : Hole) : List Char :=
  hole.source.opening ++ (hole.source.prolog ++
    ((hole.tag.render ++ closing false) ++ hole.first.render))

/-- The text behind the declaration. -/
def behind (hole : Hole) : List Char :=
  hole.rest.render ++ (hole.ending.render ++ hole.source.back)

/-- The text with something in the hole. -/
def text (hole : Hole) (middle : List Char) : List Char := hole.front ++ (middle ++ hole.behind)

/-- The number of start declarations in front. -/
def index (hole : Hole) : Nat :=
  ((elements (hole.firstNodes 0)).filter (·.isNamed "start")).length

/-- The root element with a declaration in the hole. -/
def root (hole : Hole) (source : ElementSource) : ElementSource :=
  .filled hole.tag (hole.first.append (source.before hole.rest)) hole.ending

variable (hole : Hole)

theorem separated_root {source : ElementSource} (separated : source.inner.Separated) :
    (hole.root source).inner.Separated :=
  (Content.separated_append (source.beginsWithText_before _)).mpr
    ⟨hole.firstSeparated, (source.separated_before _).mpr ⟨separated, hole.restSeparated⟩⟩

/-- The document as it is written with a declaration in the hole. -/
def documentSource (source : ElementSource) (separated : source.inner.Separated) :
    DocumentSource :=
  hole.source.withRoot (hole.root source) hole.tag_eq (hole.separated_root separated)

theorem render_documentSource {source : ElementSource} (separated : source.inner.Separated) :
    (hole.documentSource source separated).render = hole.text source.render := by
  simp [documentSource, DocumentSource.render, DocumentSource.withRoot, root, text, front, behind,
    ElementSource.render, filledRender]

/-- The root element as it is read with a declaration in the hole. -/
def rootReading (source : ElementSource) (reading : Nat → Element) (place : Nat) : Element :=
  let inside := place + byteLength (hole.tag.render ++ closing false)
  ⟨hole.reading.tag place (byteLength (hole.root source).render) false,
    (joinNodes [] (hole.firstNodes inside ++
      (reading (inside + byteLength hole.first.render)).node ::
        hole.restNodes (inside + byteLength hole.first.render + byteLength source.render))).reverse⟩

theorem reads_root {source : ElementSource} {reading : Nat → Element}
    (reads : source.Reads [] nestingLimit hole.scope 0 reading 0) :
    (hole.root source).Reads [] nestingLimit [] 0 (hole.rootReading source reading) 0 :=
  hole.reading.reads_filled (hole.firstReads.append (reads.before hole.restReads)) hole.matching

theorem parse_text (declaration : DeclarationSource hole.scope) :
    Tree.parse (String.ofList (hole.text declaration.source.render)) = .ok
      (hole.source.tree (hole.rootReading declaration.source declaration.reading
        hole.source.start)) := by
  rw [← hole.render_documentSource declaration.separated]
  refine ((hole.documentSource _ declaration.separated).parse_eq_ok_iff
    (Entities.wellFormed_of_eq_nil hole.undeclared)).mpr ⟨_, 0, ?_, rfl⟩
  have reads := hole.reads_root declaration.reads
  rw [← hole.undeclared] at reads
  exact reads

/-- The document with a declaration in the hole. -/
def fill (declaration : DeclarationSource hole.scope) : Document :=
  ⟨_, _, hole.parse_text declaration⟩

@[simp] theorem text_fill (declaration : DeclarationSource hole.scope) :
    (hole.fill declaration).text = String.ofList (hole.text declaration.source.render) := rfl

/-- The declaration stands behind the root tag and the content in front. -/
theorem length_front : hole.source.start + byteLength (hole.tag.render ++ closing false) +
    byteLength hole.first.render = byteLength hole.front := by
  simp only [front, byteLength_append, DocumentSource.start]
  omega

/-- The declaration in the hole is the one that is read there. -/
theorem declarations_fill (declaration : DeclarationSource hole.scope) :
    (hole.fill declaration).declarations[hole.index]? =
      some ⟨declaration.reading (byteLength hole.front)⟩ := by
  have count := hole.firstReads.length_filter_elements "start"
    (hole.source.start + byteLength (hole.tag.render ++ closing false)) 0
  rw [Document.declarations, fill, hole.source.declarations_tree, List.getElem?_map,
    rootReading, elements_joinNodes_across, List.filter_append, List.filter_cons,
    if_pos (declaration.named _), index, List.getElem?_append_right (Nat.le_of_eq count), count,
    Nat.sub_self, hole.length_front]
  rfl

end Hole

namespace DeclarationSource

variable {scope : Scope} (declaration : DeclarationSource scope)

/-- The declaration as a text of its own. -/
def site : Site [] scope (declaration.reading 0) where
  front := []
  behind := []
  source := declaration.source
  reading := declaration.reading
  separated := declaration.separated
  reads := declaration.reads
  element_eq := rfl

theorem text_site : declaration.site.text = declaration.source.render := by
  simp [Site.text, Site.around, site]

/-- The edit that records a value, on the declaration as a text of its own. -/
def edit (value : String) : TextEdit :=
  Declaration.record ⟨declaration.reading 0⟩ declaration.source.render value

/-- In a document the same edit records the value, moved to where the declaration stands. -/
theorem record_eq (front behind : List Char) (value : String) :
    Declaration.record ⟨declaration.reading (byteLength front)⟩
        (front ++ (declaration.source.render ++ behind)) value =
      (declaration.edit value).movedBy (byteLength front) := by
  have moved := Declaration.record_movedBy declaration.site front behind value
  rwa [declaration.text_site, ← declaration.reads.movedBy rfl, Nat.add_zero] at moved

/-- Behind more text the declaration can be cut out as well. -/
theorem isPlaced (front behind : List Char) :
    Declaration.isPlaced ⟨declaration.reading (byteLength front)⟩
      (front ++ (declaration.source.render ++ behind)) = true := by
  have placed := (declaration.site.within front behind).isPlaced
  rwa [Site.text_within, declaration.text_site, ← declaration.reads.movedBy rfl,
    Nat.add_zero] at placed

end DeclarationSource

end RunSigning.Markup
