import RunSigning.Proofs.Recording.Document

/-
This file writes configs and reads them again. The start declarations of a written config are its
entries, and a name is looked up among the entries.
-/

namespace RunSigning
open RunSigning.Text RunSigning.Markup

/-- What a start declaration says: its own name, the name of its binary child and the value of its
signature child. A child may be missing, and so may the name or value of one. -/
structure ConfigEntry where
  name? : Option String
  binary? : Option (Option String)
  signature? : Option (Option String)
  deriving DecidableEq, Repr

/-- An entry with a binary child goes by the name of that child, even a missing one. -/
def ConfigEntry.effectiveName? (entry : ConfigEntry) : Option String :=
  match entry.binary? with
  | some binaryName? => binaryName?
  | none => entry.name?

/-- What a declaration of a document says. -/
def Declaration.entry (declaration : Declaration) : ConfigEntry where
  name? := declaration.name?
  binary? := declaration.binary?.map fun binary => (binary.attribute? "name").map Attribute.value
  signature? := declaration.signature?.map fun signature =>
    (signature.attribute? "value").map Attribute.value

theorem Declaration.effectiveName?_entry (declaration : Declaration) :
    declaration.entry.effectiveName? = declaration.effectiveName? := by
  rw [Declaration.effectiveName?, Declaration.binaryName?, ConfigEntry.effectiveName?, entry]
  cases declaration.binary? <;> rfl

/-- A text that a document may hold. -/
abbrev AllowedString := { text : String // AllAllowed text.toList }

/-- An entry to be written. An element without children may be closed by its start tag, as is said
for each name of an element. -/
structure WrittenEntry where
  name? : Option AllowedString
  binary? : Option (Option AllowedString)
  signature? : Option (Option AllowedString)
  isShort : String → Bool

def WrittenEntry.entry (written : WrittenEntry) : ConfigEntry where
  name? := written.name?.map Subtype.val
  binary? := written.binary?.map (Option.map Subtype.val)
  signature? := written.signature?.map (Option.map Subtype.val)

/-- An attribute, if there is a value, behind a space. -/
def attributeText (name : String) (value? : Option AllowedString) : String :=
  value?.elim "" fun value => " " ++ name ++ "=\"" ++ escapeString '"' value.val ++ "\""

/-- An element with at most one attribute. -/
def elementText (name attributeName : String) (value? : Option AllowedString) (isShort : Bool)
    (content : String) : String :=
  "<" ++ name ++ attributeText attributeName value? ++
    if isShort then "/>" else ">" ++ content ++ "</" ++ name ++ ">"

namespace WrittenEntry

variable (written : WrittenEntry)

/-- A start tag closes its element only if the element has no children. -/
def closes : Bool :=
  written.isShort "start" && written.binary?.isNone && written.signature?.isNone

def text : String :=
  elementText "start" "name" written.name? written.closes
    ((written.binary?.elim "" fun name? =>
        elementText "binary" "name" name? (written.isShort "binary") "") ++
      written.signature?.elim "" fun value? =>
        elementText "signature" "value" value? (written.isShort "signature") "")

end WrittenEntry

/-- The config with the entries. -/
def configText (entries : List WrittenEntry) : String :=
  "<config>" ++ String.join (entries.map WrittenEntry.text) ++ "</config>"

namespace Markup.PlainName

def config : PlainName := .ofText "config" (by decide +kernel) (by decide +kernel) (by decide)

def start : PlainName := .ofText "start" (by decide +kernel) (by decide +kernel) (by decide)

def binary : PlainName := .ofText "binary" (by decide +kernel) (by decide +kernel) (by decide)

def signature : PlainName :=
  .ofText "signature" signatureName.nameCharacters signatureName.spells (by decide)

def name : PlainName := .ofText "name" (by decide +kernel) (by decide +kernel) (by decide)

def value : PlainName := .ofText "value" valueName.nameCharacters valueName.spells (by decide)

end Markup.PlainName

/-- An attribute, if there is a value. -/
def optionalAttribute (name : PlainName) (value? : Option AllowedString) : List EscapedAttribute :=
  value?.toList.map fun value => ⟨name, '"', value.val, doubleQuote_quoted, value.property⟩

theorem nodup_optionalAttribute (name : PlainName) (value? : Option AllowedString) :
    ((optionalAttribute name value?).map fun held => held.name.localName).Nodup := by
  cases value? <;> simp [optionalAttribute]

theorem find?_optionalAttribute (name : PlainName) (value? : Option AllowedString) :
    ((optionalAttribute name value?).find? fun held => held.name.localName == name.localName).map
      EscapedAttribute.value = value?.map Subtype.val := by
  cases value? <;> simp [optionalAttribute]

/-- An element with at most one attribute and without children. -/
def childElement (name attributeName : PlainName) (value? : Option AllowedString)
    (isShort : Bool) : PlainElement :=
  ⟨name, optionalAttribute attributeName value?, .nil, isShort, nodup_optionalAttribute _ _,
    fun _ => rfl⟩

/-- A child, if there is one, before other content. -/
def optionalChild (child? : Option PlainElement) (rest : Content) : Content :=
  child?.elim rest fun child => child.source.before rest

namespace WrittenEntry

variable (written : WrittenEntry)

def binaryChild? : Option PlainElement := written.binary?.map fun name? =>
  childElement .binary .name name? (written.isShort "binary")

def signatureChild? : Option PlainElement := written.signature?.map fun value? =>
  childElement .signature .value value? (written.isShort "signature")

/-- The start element. -/
def element : PlainElement where
  name := .start
  attributes := optionalAttribute .name written.name?
  inner := optionalChild written.binaryChild? (optionalChild written.signatureChild? .nil)
  isShort := written.closes
  distinct := nodup_optionalAttribute _ _
  unfilled := by
    simp only [closes, Bool.and_eq_true, Option.isNone_iff_eq_none]
    rintro ⟨⟨-, noBinary⟩, noSignature⟩
    rw [binaryChild?, signatureChild?, noBinary, noSignature]
    rfl

end WrittenEntry

/-- The start elements one behind the other. -/
def entriesContent : List WrittenEntry → Content
  | [] => .nil
  | written :: rest => written.element.source.before (entriesContent rest)

/-- The root element with the entries. -/
def configElement (entries : List WrittenEntry) : PlainElement where
  name := .config
  attributes := []
  inner := entriesContent entries
  isShort := false
  distinct := List.nodup_nil
  unfilled := by rintro ⟨⟩

/-- A plain element is written as its text. -/
theorem toList_elementText {plain : PlainElement} {attributeName : PlainName}
    {value? : Option AllowedString} {content : String}
    (held : plain.attributes = optionalAttribute attributeName value?)
    (named : plain.name.written.run = plain.name.localName.toList)
    (attributeNamed : attributeName.written.run = attributeName.localName.toList)
    (filled : plain.inner.render = content.toList) :
    (elementText plain.name.localName attributeName.localName value? plain.isShort content).toList =
      plain.source.render := by
  have attributes : (attributeText attributeName.localName value?).toList =
      (optionalAttribute attributeName value?).flatMap fun held => held.source.render := by
    cases value? with
    | none => rfl
    | some value =>
        simp [attributeText, optionalAttribute, EscapedAttribute.render_source, escapeString,
          attributeNamed]
  rw [plain.render_source, plain.render_tag, held, filled, named, elementText]
  split <;> simp [attributes]

/-- An optional child is written as its text. -/
theorem render_optionalChild (child? : Option PlainElement) (rest : Content) :
    (optionalChild child? rest).render =
      (child?.elim [] fun child => child.source.render) ++ rest.render := by
  cases child? with
  | none => rfl
  | some child => exact ElementSource.render_before _ _

theorem separated_optionalChild {child? : Option PlainElement} {rest : Content}
    (unfilled : ∀ child ∈ child?, child.inner = .nil) (goesOn : rest.Separated) :
    (optionalChild child? rest).Separated := by
  cases child? with
  | none => exact goesOn
  | some child =>
      refine (ElementSource.separated_before _ _).2 ⟨?_, goesOn⟩
      rw [child.inner_source, unfilled child rfl]
      trivial

namespace WrittenEntry

variable (written : WrittenEntry)

theorem toList_text : written.text.toList = written.element.source.render := by
  refine @toList_elementText written.element .name written.name? _ rfl rfl rfl ?_
  have binary : (written.binary?.elim "" fun name? =>
      elementText "binary" "name" name? (written.isShort "binary") "").toList =
      written.binaryChild?.elim [] fun child => child.source.render := by
    rw [binaryChild?]
    cases written.binary? with
    | none => rfl
    | some name? =>
        exact @toList_elementText (childElement .binary .name name? _) .name name? ""
          rfl rfl rfl rfl
  have signature : (written.signature?.elim "" fun value? =>
      elementText "signature" "value" value? (written.isShort "signature") "").toList =
      written.signatureChild?.elim [] fun child => child.source.render := by
    rw [signatureChild?]
    cases written.signature? with
    | none => rfl
    | some value? =>
        exact @toList_elementText (childElement .signature .value value? _) .value value? ""
          rfl rfl rfl rfl
  rw [String.toList_append, binary, signature]
  change (optionalChild _ (optionalChild _ .nil)).render = _
  rw [render_optionalChild, render_optionalChild, Content.render, List.append_nil]

theorem inner_binaryChild? : ∀ child ∈ written.binaryChild?, child.inner = .nil := by
  intro child found
  obtain ⟨name?, -, rfl⟩ := Option.map_eq_some_iff.1 found
  rfl

theorem inner_signatureChild? : ∀ child ∈ written.signatureChild?, child.inner = .nil := by
  intro child found
  obtain ⟨value?, -, rfl⟩ := Option.map_eq_some_iff.1 found
  rfl

theorem separated : written.element.source.inner.Separated := by
  rw [PlainElement.inner_source]
  exact separated_optionalChild written.inner_binaryChild?
    (separated_optionalChild written.inner_signatureChild? trivial)

end WrittenEntry

theorem render_entriesContent (entries : List WrittenEntry) :
    (entriesContent entries).render = (String.join (entries.map WrittenEntry.text)).toList := by
  induction entries with
  | nil => rfl
  | cons written entries ih =>
      rw [entriesContent, ElementSource.render_before, ih, ← written.toList_text, List.map_cons,
        String.join_cons, String.toList_append]

theorem separated_entriesContent (entries : List WrittenEntry) :
    (entriesContent entries).Separated := by
  induction entries with
  | nil => trivial
  | cons written entries ih =>
      exact (ElementSource.separated_before _ _).2 ⟨written.separated, ih⟩

theorem render_configElement (entries : List WrittenEntry) :
    String.ofList (configElement entries).source.render = configText entries := by
  have opening : "<config>".toList = '<' :: (PlainName.config.written.run ++ ['>']) := rfl
  have ending : "</config>".toList = '<' :: '/' :: (PlainName.config.written.run ++ ['>']) := rfl
  rw [← String.toList_inj, String.toList_ofList, PlainElement.render_source,
    PlainElement.render_tag, configText]
  simp [configElement, render_entriesContent, opening, ending]

theorem separated_configElement (entries : List WrittenEntry) :
    (configElement entries).source.inner.Separated := by
  rw [PlainElement.inner_source]
  exact separated_entriesContent entries

/-- An optional child is read, if there is one, before the elements of the other content. -/
theorem exists_optionalChild_reads {child? : Option PlainElement} {rest : Content}
    {nodes : Nat → List Node} (unfilled : ∀ child ∈ child?, child.inner = .nil)
    (goesOn : rest.Reads [] nestingLimit [] 0 nodes 0) :
    ∃ more, (optionalChild child? rest).Reads [] nestingLimit [] 0 more 0 ∧
      ∀ place, ∃ element? place', Option.Rel PlainElement.Describes child? element? ∧
        elements (more place) = element?.toList ++ elements (nodes place') := by
  cases child? with
  | none => exact ⟨nodes, goesOn, fun place => ⟨none, place, .none, rfl⟩⟩
  | some child =>
      have inside : child.inner.Reads [] nestingLimit [] 0 (fun _ => []) 0 := by
        rw [unfilled child rfl]
        exact .nil [] 0
      obtain ⟨reading, reads, describes⟩ := child.exists_reads inside
      exact ⟨_, reads.before goesOn, fun place =>
        ⟨some (reading place), _, .some (describes place).1, rfl⟩⟩

section
variable {name : PlainName} {attributeName : PlainName} {value?? : Option (Option AllowedString)}
  {isShort : Bool} {element? : Option Element}
  (describes : Option.Rel PlainElement.Describes
    (value??.map fun value? => childElement name attributeName value? isShort) element?)
include describes

/-- A child without children is found by its own name only. -/
theorem find?_isNamed_child (text : String) :
    element?.toList.find? (·.isNamed text) = if name.localName = text then element? else none := by
  cases value?? with
  | none =>
      cases describes
      rw [ite_self]
      rfl
  | some value? =>
      cases describes with
      | some child =>
          rw [Option.toList_some, List.find?_singleton, child.isNamed]
          simp [childElement]

/-- What is read of a child is its value. -/
theorem map_attribute?_child :
    element?.map (fun element => (element.attribute? attributeName.localName).map Attribute.value) =
      value??.map (Option.map Subtype.val) := by
  cases value?? with
  | none =>
      cases describes
      rfl
  | some value? =>
      cases describes with
      | some child =>
          rw [Option.map_some, Option.map_some, child.attribute?]
          exact congrArg some (find?_optionalAttribute attributeName value?)

end

namespace WrittenEntry

/-- A start element is read as what its entry says. -/
theorem entry_of_describes {written : WrittenEntry} {element : Element}
    {binary? signature? : Option Element} (describes : written.element.Describes element)
    (children : elements element.children = binary?.toList ++ signature?.toList)
    (binary : Option.Rel PlainElement.Describes written.binaryChild? binary?)
    (signature : Option.Rel PlainElement.Describes written.signatureChild? signature?) :
    (Declaration.mk element).entry = written.entry := by
  have child (text : String) : element.child? text =
      (binary?.toList.find? (·.isNamed text)).or (signature?.toList.find? (·.isNamed text)) := by
    rw [← List.find?_append, ← children]
    rfl
  have binaryChild : element.child? "binary" = binary? := by
    rw [child, find?_isNamed_child binary, find?_isNamed_child signature, if_pos (by decide),
      if_neg (by decide), Option.or_none]
  have signatureChild : element.child? "signature" = signature? := by
    rw [child, find?_isNamed_child binary, find?_isNamed_child signature, if_neg (by decide),
      if_pos (by decide), Option.none_or]
  have name : (element.attribute? "name").map Attribute.value = written.name?.map Subtype.val :=
    (describes.attribute? "name").trans (find?_optionalAttribute .name written.name?)
  have binaryName : binary?.map (fun binary => (binary.attribute? "name").map Attribute.value) =
      written.binary?.map (Option.map Subtype.val) := map_attribute?_child binary
  have signatureValue :
      signature?.map (fun signature => (signature.attribute? "value").map Attribute.value) =
        written.signature?.map (Option.map Subtype.val) := map_attribute?_child signature
  rw [Declaration.entry, Declaration.name?, Declaration.binary?, Declaration.signature?,
    binaryChild, signatureChild, name, binaryName, signatureValue]
  rfl

end WrittenEntry

/-- The content is read as start elements that say what the entries say. -/
theorem exists_entriesContent_reads (entries : List WrittenEntry) :
    ∃ nodes, (entriesContent entries).Reads [] nestingLimit [] 0 nodes 0 ∧ ∀ place,
      (∀ element ∈ elements (nodes place), element.isNamed "start" = true) ∧
      (elements (nodes place)).map (fun element => (Declaration.mk element).entry) =
        entries.map WrittenEntry.entry := by
  induction entries with
  | nil => exact ⟨_, .nil [] 0, fun place => ⟨List.forall_mem_nil _, rfl⟩⟩
  | cons written entries ih =>
      obtain ⟨more, later, rest⟩ := ih
      obtain ⟨signatures, signatureReads, signature⟩ :=
        @exists_optionalChild_reads written.signatureChild? _ _ written.inner_signatureChild?
          (.nil [] 0)
      obtain ⟨children, childrenReads, binary⟩ :=
        @exists_optionalChild_reads written.binaryChild? _ _ written.inner_binaryChild?
          signatureReads
      obtain ⟨reading, reads, describes⟩ := written.element.exists_reads childrenReads
      refine ⟨_, reads.before later, fun place => ?_⟩
      obtain ⟨start, inside⟩ := describes place
      obtain ⟨binary?, place', binaryDescribes, binaryElements⟩ := binary
        (place + byteLength (written.element.tag.render ++ closing false))
      obtain ⟨signature?, _, signatureDescribes, signatureElements⟩ := signature place'
      rw [binaryElements, signatureElements, elements_nil, List.append_nil] at inside
      have entry := WrittenEntry.entry_of_describes start inside binaryDescribes signatureDescribes
      obtain ⟨named, others⟩ := rest (place + byteLength written.element.source.render)
      rw [elements_node_cons]
      exact ⟨List.forall_mem_cons.2 ⟨(start.isNamed "start").trans rfl, named⟩,
        congrArg₂ List.cons entry others⟩

/-- A config is read as its entries, and a name is looked up among them. -/
theorem lookup_configText (entries : List WrittenEntry) :
    ∃ document, Document.ofText (configText entries) = .ok document ∧
      document.declarations.map Declaration.entry = entries.map WrittenEntry.entry ∧
      ∀ name,
        document.findIndex? name = (entries.map WrittenEntry.entry).findIdx?
          (fun entry => entry.effectiveName? == some name) ∧
        (document.find? name).map Declaration.entry = (entries.map WrittenEntry.entry).find?
          (fun entry => entry.effectiveName? == some name) := by
  obtain ⟨nodes, contentReads, said⟩ := exists_entriesContent_reads entries
  obtain ⟨reading, reads, describes⟩ := (configElement entries).exists_reads contentReads
  have parses := reads.parse (separated_configElement entries)
  rw [render_configElement] at parses
  have declared : (Document.mk _ _ parses).declarations.map Declaration.entry =
      entries.map WrittenEntry.entry := by
    obtain ⟨named, same⟩ := said (0 + byteLength ((configElement entries).tag.render ++
      closing false))
    rw [Document.declarations, DocumentSource.declarations_tree, (describes 0).2,
      List.filter_eq_self.2 named, List.map_map]
    exact same
  refine ⟨⟨_, _, parses⟩, Document.ofText_eq_ok_iff.2 rfl, declared, fun name => ?_⟩
  have byEntry : (fun declaration : Declaration => declaration.matches name) =
      (fun entry : ConfigEntry => entry.effectiveName? == some name) ∘ Declaration.entry := by
    funext declaration
    rw [Declaration.matches, ← declaration.effectiveName?_entry]
    rfl
  constructor
  · rw [← declared, List.findIdx?_map, Document.findIndex?, byEntry]
  · rw [← declared, List.find?_map, Document.find?, byEntry]

-- Values are escaped, and a child without attributes and content is a single tag here.
example : configText
    [⟨some ⟨"a\"<", by rw [AllAllowed]; decide +kernel⟩, some none, none, fun _ => true⟩] =
      "<config><start name=\"a&quot;&lt;\"><binary/></start></config>" := by
  decide +kernel

end RunSigning
