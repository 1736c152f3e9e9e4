import RunSigning.Proofs.Recording.Literal
import RunSigning.Proofs.Recording.Outside

/-
This file says what appending a signature adds to the character data of a declaration. The new
element comes behind white space that is copied from the text in front of the last one. What is
white space here has the Unicode property, so more than the four blanks of markup is copied.
-/

namespace RunSigning.Markup
open RunSigning.Text

mutual

/-- The character data of a node, in document order. -/
def Node.characters : Node → List Char
  | .element _ children => charactersOf children
  | .text content => content.toList
  | .comment _ => []
  | .instruction _ _ => []

/-- The character data of nodes one after the other. -/
def charactersOf : List Node → List Char
  | [] => []
  | node :: nodes => node.characters ++ charactersOf nodes

end

/-- The character data in an element. -/
def Element.characters (element : Element) : List Char := charactersOf element.children

def Shape.characters : Shape → List Char
  | .element _ _ _ children => children.flatMap characters
  | .text content => content.toList
  | .comment _ => []
  | .instruction _ _ => []

/-- Character data is read off the shape. -/
theorem Node.characters_shape (node : Node) : node.shape.characters = node.characters := by
  refine @Node.characters.induct (fun node => node.shape.characters = node.characters)
    (fun nodes => (nodes.map Node.shape).flatMap Shape.characters = charactersOf nodes)
    ?_ ?_ ?_ ?_ ?_ ?_ node
  · intro tag children ih
    rw [Node.shape, Shape.characters, ih, Node.characters]
  · intro content
    rw [Node.shape, Shape.characters, Node.characters]
  · intro content
    rw [Node.shape, Shape.characters, Node.characters]
  · intro target data
    rw [Node.shape, Shape.characters, Node.characters]
  · rfl
  · intro first nodes ih later
    rw [List.map_cons, List.flatMap_cons, ih, later, charactersOf]

theorem Element.characters_shape (element : Element) :
    element.shape.characters = element.characters := by
  rw [Element.shape, Node.characters_shape, Node.characters, Element.characters]

theorem characters_signatureShape (value : String) (uri? : Option String) :
    (signatureShape value uri?).characters = [] := by
  rw [signatureShape, Shape.characters]
  rfl

theorem characters_indentGap (indent : List Char) :
    (indentGap indent).flatMap Shape.characters = foldLineBreaks indent := by
  rw [indentGap]
  cases indent with
  | nil => rfl
  | cons c indent => simp [Shape.characters]

/-- The character data grows by the white space in front of the new element. -/
theorem Appended.characters {entities : Entities} {scope : Scope} {element : Element}
    {site : Site entities scope element} {value : String} {spot : Span} {source : ElementSource}
    {reading : Nat → Element} (appended : Appended site value spot source reading) (place : Nat) :
    ∃ front back, element.characters = front ++ back ∧
      (reading place).characters = front ++ (foldLineBreaks element.indent ++ back) := by
  obtain ⟨-, -, spaced, -, -, -, -, -, before, after⟩ := appended
  rename_i name uri? signatureUri? attributes first gap rest
  refine ⟨first.flatMap Shape.characters, rest.flatMap Shape.characters, ?_, ?_⟩
  · rw [← element.characters_shape, before, Shape.characters, List.flatMap_append]
  · rw [← (reading place).characters_shape, after, Shape.characters, List.flatMap_append,
      List.flatMap_append, List.flatMap_cons, spaced, characters_indentGap,
      characters_signatureShape, List.nil_append]

end RunSigning.Markup

namespace RunSigning
open RunSigning.Text RunSigning.Markup

/-- The text on the line of a node, given the nodes before it, nearest first. Comments and
instructions stand on the same line. -/
def textBefore? : List Node → Option String
  | .text content :: _ => some content
  | .comment _ :: earlier => textBefore? earlier
  | .instruction _ _ :: earlier => textBefore? earlier
  | _ => none

/-- The text in front of the last element in an element. -/
def Markup.Element.lead? (element : Element) : Option String :=
  (lastElement? element.children.reverse).bind fun found => textBefore? found.2

theorem indentAfter_eq (nodes : List Node) :
    indentAfter nodes = (textBefore? nodes).elim [] fun content => lineIndent content.toList := by
  induction nodes with
  | nil => rfl
  | cons node nodes ih =>
      cases node with
      | element tag children => rfl
      | text content => rfl
      | comment content => exact ih
      | instruction target data => exact ih

theorem Markup.Element.indent_eq (element : Element) :
    element.indent = element.lead?.elim [] fun content => lineIndent content.toList := by
  rw [indent, lead?]
  cases lastElement? element.children.reverse with
  | none => rfl
  | some found => exact indentAfter_eq found.2

theorem after_suffix (offset : Nat) (text : List Char) : after offset text <:+ text := by
  rw [after]
  cases cut : splitAt? offset text with
  | none => exact List.nil_suffix
  | some parts =>
      obtain ⟨split, -⟩ := splitAt?_eq_some_iff.mp cut
      exact ⟨parts.1, split.symm⟩

theorem lineIndent_suffix (content : List Char) : lineIndent content <:+ content := by
  rw [lineIndent]
  split
  · split
    · exact after_suffix _ _
    · exact List.suffix_refl content
  · exact List.nil_suffix

/-- Only white space has an indentation. -/
theorem white_of_lineIndent {content : List Char} (indented : lineIndent content ≠ []) :
    ∀ c ∈ content, isWhiteSpace c = true := by
  rw [lineIndent] at indented
  split at indented
  · rename_i white
    exact List.all_eq_true.mp white
  · exact absurd rfl indented

/-- The indentation is the end of a text in front of the last element that is all white space. -/
theorem Markup.Element.exists_lead {element : Element} (indented : element.indent ≠ []) :
    ∃ lead, element.lead? = some lead ∧ element.indent <:+ lead.toList ∧
      ∀ c ∈ lead.toList, isWhiteSpace c = true := by
  rw [indent_eq] at indented ⊢
  cases held : element.lead? with
  | none =>
      rw [held] at indented
      exact absurd rfl indented
  | some lead =>
      rw [held] at indented
      exact ⟨lead, rfl, lineIndent_suffix _, white_of_lineIndent indented⟩

theorem Markup.Element.indent_white (element : Element) :
    ∀ c ∈ element.indent, isWhiteSpace c = true := by
  intro c member
  obtain ⟨lead, -, isSuffix, white⟩ := exists_lead (List.ne_nil_of_mem member)
  exact white c (isSuffix.mem member)

/-- An element that is read further on has the same indentation. -/
theorem Markup.Element.indent_movedBy (element : Element) (offset : Nat) :
    (element.movedBy offset).indent = element.indent := by
  have children : (element.movedBy offset).children.reverse =
      element.children.reverse.map (Node.movedBy offset) := List.map_reverse.symm
  rw [indent, indent, children, lastElement?_map_movedBy]
  cases lastElement? element.children.reverse with
  | none => rfl
  | some found => exact indentAfter_map_movedBy found.2 offset

/-- How a new signature element is written: behind white space, or between the tags into which an
empty tag is taken apart. -/
inductive WritesSignature (text : List Char) (declaration : Declaration) (value : String)
    (indent : List Char) : TextEdit → Prop where
  | inserted (place : Nat) : WritesSignature text declaration value indent
      (.insert place (String.ofList (indent ++ signatureElement value)))
  | opened {span : Span} (empty : slice span text = "/>".toList) (bare : indent = []) :
      WritesSignature text declaration value indent ⟨span, String.ofList
        ('>' :: signatureElement value ++ "</".toList ++
          tagNameAt text declaration.element.tag.span.start ++ ['>'])⟩

/-- An appended signature is written behind the indentation of the last element. -/
theorem Markup.Site.writesSignature {scope : Scope} {element : Element}
    (site : Site [] scope element) (value : String) :
    WritesSignature site.text ⟨element⟩ value element.indent
      (Declaration.append ⟨element⟩ site.text value) := by
  rw [Declaration.append]
  dsimp only
  cases written : site.source with
  | empty tag =>
      have closes : startsWith ['>', '/'] (slice element.tag.span site.text).reverse = true := by
        rw [site.slice_eq, endsEmpty, written]
        rfl
      have bare : element.indent = [] := by
        have reads := site.reads
        rw [written] at reads
        obtain ⟨reading, reading_eq⟩ := reads.empty_inv
        rw [← site.element_eq, reading_eq]
        rfl
      obtain ⟨text, start, stop⟩ := site.ends_empty written
      rw [if_pos closes]
      refine .opened ?_ bare
      rw [text]
      exact (@slice_append ⟨_, _⟩ _ _ _ start stop).trans (by decide +kernel)
  | filled tag inner ending =>
      have closes : startsWith ['>', '/'] (slice element.tag.span site.text).reverse = false := by
        rw [site.slice_eq, endsEmpty, written]
        rfl
      rw [if_neg (by rw [closes]; exact Bool.false_ne_true), Element.indent]
      cases lastElement? element.children.reverse with
      | none => exact .inserted _
      | some found => exact .inserted _

end RunSigning

namespace RunSigning.Markup
open RunSigning.Text

namespace DeclarationSource

variable {scope : Scope} (declaration : DeclarationSource scope)

theorem reading_eq (place : Nat) :
    declaration.reading place = (declaration.reading 0).movedBy place :=
  declaration.reads.movedBy rfl place 0

theorem characters_reading (place : Nat) :
    (declaration.reading place).characters = (declaration.reading 0).characters := by
  rw [← Element.characters_shape, declaration.reads.shape_eq place 0, Element.characters_shape]

theorem unsigned_reading {place : Nat}
    (unsigned : (declaration.reading place).child? "signature" = none) :
    (declaration.reading 0).child? "signature" = none := by
  rwa [declaration.reading_eq, Element.child?_movedBy, Option.map_eq_none_iff] at unsigned

/-- A declaration without signature is edited by appending one. -/
theorem edit_append (unsigned : (declaration.reading 0).child? "signature" = none) :
    declaration.edit = Declaration.append ⟨declaration.reading 0⟩ declaration.source.render := by
  funext value
  rw [edit, Declaration.record, show Declaration.signature? ⟨declaration.reading 0⟩ = none from
    unsigned]

/-- In a document a signature is appended behind the indentation as well. -/
theorem writesSignature (unsigned : (declaration.reading 0).child? "signature" = none)
    (front behind : List Char) (value : String) :
    WritesSignature (front ++ (declaration.source.render ++ behind))
      ⟨declaration.reading (byteLength front)⟩ value (declaration.reading (byteLength front)).indent
      ((declaration.edit value).movedBy (byteLength front)) := by
  have writes := (declaration.site.within front behind).writesSignature value
  have moved := Declaration.append_movedBy declaration.site front behind value
  rw [declaration.text_site, ← declaration.reading_eq] at moved
  rwa [Site.text_within, declaration.text_site, ← declaration.reading_eq, moved,
    ← declaration.edit_append unsigned] at writes

/-- What is written for a declaration without signature is a declaration again, with a signature
appended to it. -/
theorem exists_slot_appended (unsigned : (declaration.reading 0).child? "signature" = none) :
    ∃ slot : Slot, (∀ value, declaration.edited value = slot.fill value) ∧
      ∀ value, AllAllowed value.toList → ∃ signed : DeclarationSource scope,
        signed.source.render = slot.fill value ∧
        Appended declaration.site value (slot.spot value) signed.source signed.reading := by
  have edits := declaration.site.edits_append unsigned
    ⟨fun _ _ => not_forall_before_nil rfl _, fun _ _ _ => not_forall_before_nil rfl _⟩
  rw [declaration.text_site, ← declaration.edit_append unsigned] at edits
  obtain ⟨slot, applies, accepts⟩ := edits
  refine ⟨slot, fun value => ?_, fun value allowed => ?_⟩
  · have applied := applies value
    rw [declaration.text_site] at applied
    rw [declaration.edited_eq applied]
    simp [Site.around, site]
  · obtain ⟨source, reading, render, ⟨-, separated, reads⟩, appended⟩ := accepts value allowed
    have named (place : Nat) : (reading place).isNamed "start" = true := by
      obtain ⟨-, -, -, records, after⟩ := appended.recorded unsigned
      rw [← Element.isNamed_shape, after, records.isNamed_eq, Element.isNamed_shape]
      exact declaration.named 0
    exact ⟨⟨source, reading, separated, reads, named⟩, render, appended⟩

/-- The white space in front of the new element is in the character data. -/
theorem exists_appended (unsigned : (declaration.reading 0).child? "signature" = none)
    {value : String} (allowed : AllAllowed value.toList) :
    ∃ signed : DeclarationSource scope, signed.source.render = declaration.edited value ∧
      ∀ place, ∃ front back, (declaration.reading place).characters = front ++ back ∧
        (signed.reading place).characters =
          front ++ (foldLineBreaks (declaration.reading place).indent ++ back) := by
  obtain ⟨slot, edited, holds⟩ := declaration.exists_slot_appended unsigned
  obtain ⟨signed, render, appended⟩ := holds value allowed
  refine ⟨signed, render.trans (edited value).symm, fun place => ?_⟩
  rw [declaration.characters_reading place, declaration.reading_eq place, Element.indent_movedBy]
  exact appended.characters place

end DeclarationSource

end RunSigning.Markup

namespace RunSigning
open RunSigning.Text RunSigning.Markup

/-- What is added is seen exactly if some of it is kept. -/
theorem filter_grown {keep : Char → Bool} (feed : keep '\n' = false) (back : keep '\r' = false)
    (first indent last : List Char) :
    (first ++ (foldLineBreaks indent ++ last)).filter keep = (first ++ last).filter keep ↔
      ∀ c ∈ indent, keep c = false := by
  rw [List.filter_append, List.filter_append, List.filter_append, List.append_cancel_left_eq,
    filter_foldLineBreaks feed back, List.append_left_eq_self, List.filter_eq_nil_iff]
  simp

/-- What appending a signature writes, and what it adds to the character data. In a document without
document type declaration every value that a document may hold is appended to a declaration without
signature. The new element stands behind white space, which is the end of the text in front of the
last element, and only if all of this text is white space. The character data grows by this white
space, and by nothing else. It is white space in the sense of Unicode: without the four blanks of
markup the character data stays the same exactly if what is copied holds these blanks only. -/
theorem Document.recorded_characters {document : Document} {index : Nat}
    {declaration : Declaration} {value : String} (plain : document.tree.hasDoctype = false)
    (declared : document.declarations[index]? = some declaration)
    (unsigned : declaration.signature? = none) (allowed : ∀ c ∈ value.toList, isAllowed c = true) :
    ∃ (indent : List Char) (edit : TextEdit) (changed : Document) (signed : Declaration),
      document.recording declaration value = .ok edit ∧
      WritesSignature document.text.toList declaration value indent edit ∧
      (indent ≠ [] → ∃ lead, declaration.element.lead? = some lead ∧ indent <:+ lead.toList ∧
        ∀ c ∈ lead.toList, isWhiteSpace c = true) ∧
      document.apply edit = .ok changed ∧ changed.declarations[index]? = some signed ∧
      (∃ front back, declaration.element.characters = front ++ back ∧
        signed.element.characters = front ++ (foldLineBreaks indent ++ back)) ∧
      signed.element.characters.filter (!isWhiteSpace ·) =
        declaration.element.characters.filter (!isWhiteSpace ·) ∧
      (signed.element.characters.filter (!isSpace ·) =
        declaration.element.characters.filter (!isSpace ·) ↔ ∀ c ∈ indent, isSpace c = true) := by
  obtain ⟨hole, old, rfl, rfl⟩ := exists_hole plain (List.getElem?_eq_some_iff.mp declared).choose
  obtain rfl := Option.some.inj ((hole.declarations_fill old).symm.trans declared)
  have unsigned' := old.unsigned_reading unsigned
  obtain ⟨new, render, grows⟩ := old.exists_appended unsigned' allowed
  obtain ⟨front, back, before, after⟩ := grows (byteLength hole.front)
  dsimp only
  generalize written : (old.reading (byteLength hole.front)).indent = indent at after
  have white : ∀ c ∈ indent, isWhiteSpace c = true :=
    written ▸ (old.reading (byteLength hole.front)).indent_white
  refine ⟨indent, _, _, _, hole.recording_fill old value, ?_, ?_, hole.apply_of_edited render,
    hole.declarations_fill new, ⟨front, back, before, after⟩, ?_, ?_⟩
  · subst written
    rw [Hole.text_fill, String.toList_ofList, Hole.text]
    exact old.writesSignature unsigned' hole.front hole.behind value
  · subst written
    exact Element.exists_lead
  · dsimp only
    rw [before, after]
    exact (filter_grown (by decide) (by decide) front indent back).mpr
      fun c member => by rw [white c member]; rfl
  · dsimp only
    rw [before, after, filter_grown (by decide) (by decide)]
    simp

theorem Document.recorded_characters_sampleConfig :
    ∃ edit changed signed, sampleConfig.declarations[1]? = some (sampleDeclaration 1) ∧
      sampleConfig.recording (sampleDeclaration 1) "S" = .ok edit ∧
      sampleConfig.apply edit = .ok changed ∧ changed.declarations[1]? = some signed ∧
      signed.element.characters.filter (!isWhiteSpace ·) =
        (sampleDeclaration 1).element.characters.filter (!isWhiteSpace ·) := by
  obtain ⟨indent, edit, changed, signed, recording, -, -, applied, found, -, kept, -⟩ :=
    @Document.recorded_characters sampleConfig 1 (sampleDeclaration 1) "S" (by decide +kernel)
      (getElem?_sampleConfig 1) (by decide +kernel) (by decide)
  exact ⟨edit, changed, signed, getElem?_sampleConfig 1, recording, applied, found, kept⟩

/-- A declaration up to its end tag, with a no-break space in front of its only element. -/
def hardSpaceFront : List Char :=
  "<config><start name=\"a\">&#xA0;<binary name=\"b\"/>".toList

def hardSpaceBehind : List Char := "</start></config>".toList

/-- A config with a declaration that has a no-break space for text. -/
def hardSpaceConfig : Document :=
  Document.ofList (hardSpaceFront ++ hardSpaceBehind) (by decide +kernel)

/-- The config with a signature, in front of which the no-break space is written again. -/
def signedHardSpaceConfig : Document :=
  Document.ofList (hardSpaceFront ++ ('\u00a0' :: signatureElement "S" ++ hardSpaceBehind))
    (by decide +kernel)

theorem hardSpaceConfig_declarations :
    hardSpaceConfig.declarations.map (fun declaration => (declaration.signature?.isNone,
      declaration.element.characters, declaration.isPlaced hardSpaceConfig.text.toList,
      hardSpaceConfig.record declaration "S")) =
        [(true, ['\u00a0'], true, .insert (byteLength hardSpaceFront)
          (String.ofList ('\u00a0' :: signatureElement "S")))] := by
  decide +kernel

theorem signedHardSpaceConfig_declarations :
    signedHardSpaceConfig.declarations.map (·.element.characters) = [['\u00a0', '\u00a0']] := by
  decide +kernel

/-- A no-break space is copied in front of the signature, though it is no blank of markup. -/
theorem Document.exists_copied_character :
    ∃ (document changed : Document) (declaration signed : Declaration) (edit : TextEdit),
      document.tree.hasDoctype = false ∧ document.declarations[0]? = some declaration ∧
      declaration.signature? = none ∧ (∀ c ∈ "S".toList, isAllowed c = true) ∧
      document.recording declaration "S" = .ok edit ∧
      edit.replacement.toList = '\u00a0' :: signatureElement "S" ∧ isSpace '\u00a0' = false ∧
      document.apply edit = .ok changed ∧ changed.declarations[0]? = some signed ∧
      signed.element.characters.filter (!isSpace ·) ≠
        declaration.element.characters.filter (!isSpace ·) := by
  obtain ⟨declaration, single, view⟩ := List.map_eq_singleton_iff.mp hardSpaceConfig_declarations
  obtain ⟨signed, alone, after⟩ := List.map_eq_singleton_iff.mp signedHardSpaceConfig_declarations
  simp only [Prod.mk.injEq, Option.isNone_iff_eq_none] at view
  obtain ⟨unsigned, before, placed, edit_eq⟩ := view
  have recording : hardSpaceConfig.recording declaration "S" = .ok (.insert
      (byteLength hardSpaceFront) (String.ofList ('\u00a0' :: signatureElement "S"))) := by
    rw [Document.recording, if_pos placed, edit_eq]
  have applied := @TextEdit.apply_insert _ hardSpaceFront hardSpaceBehind
    ('\u00a0' :: signatureElement "S") rfl
  refine ⟨hardSpaceConfig, signedHardSpaceConfig, declaration, signed, _, by decide +kernel,
    by rw [single]; rfl, unsigned, by decide, recording, String.toList_ofList, by decide,
    Document.apply_eq_ok_iff.mpr applied, by rw [alone]; rfl, ?_⟩
  rw [before, after]
  decide

end RunSigning
