import RunSigning.Proofs.Recording.Placed
import RunSigning.Proofs.Recording.Refinement

/-
This file says when recording yields an edit. The edit never leaves the text and never cuts a
character; only a declaration without signature whose end comes before its beginning has none.
-/

namespace RunSigning.Text

variable {text : List Char} {span : Span}

/-- A place where the text can be cut is an empty span. -/
theorem IsCut.isPlaced {offset : Nat} (cut : IsCut text offset) :
    Span.IsPlaced ⟨offset, offset⟩ text :=
  ⟨cut, cut, Nat.le_refl offset⟩

theorem isCut_append (first last : List Char) : IsCut (first ++ last) (byteLength first) :=
  ⟨first, last, rfl, rfl⟩

/-- The parts of a text before a span, in it and after it. -/
theorem Span.IsPlaced.exists_split (placed : span.IsPlaced text) :
    ∃ first middle last, text = first ++ (middle ++ last) ∧ span.start = byteLength first ∧
      span.stop = byteLength first + byteLength middle := by
  obtain ⟨⟨first, behind, equal, start⟩, ⟨front, last, equal', stop⟩, ordered⟩ := placed
  rcases List.append_eq_append_iff.mp (equal.symm.trans equal') with
    ⟨middle, rfl, rfl⟩ | ⟨extra, rfl, rfl⟩
  · exact ⟨first, middle, last, equal, start.symm, by rw [← stop, byteLength_append]⟩
  · rw [byteLength_append] at start
    exact ⟨front ++ extra, [], behind, equal, by rw [byteLength_append]; omega, by
      rw [byteLength_append, byteLength_nil]; omega⟩

/-- The last place where something is found is a place to cut, counted from the start. -/
theorem lastFrom_cases {found : List Char → Bool} (text : List Char) (offset : Nat)
    (last : Option Nat) :
    lastFrom found offset last text = last ∨ ∃ first behind, text = first ++ behind ∧
      lastFrom found offset last text = some (offset + byteLength first) := by
  induction text generalizing offset last with
  | nil => exact .inl rfl
  | cons c text ih =>
      rw [lastFrom]
      rcases ih (offset + c.utf8Size) (if found (c :: text) then some offset else last) with
        here | ⟨first, behind, rfl, later⟩
      · rw [here]
        split
        · exact .inr ⟨[], c :: text, rfl, rfl⟩
        · exact .inl rfl
      · exact .inr ⟨c :: first, behind, rfl, by rw [later, byteLength_cons, Nat.add_assoc]⟩

theorem isCut_of_lastOccurrence? {part : List Char} {place : Nat}
    (found : lastOccurrence? part text = some place) : IsCut text place := by
  rw [lastOccurrence?] at found
  rcases @lastFrom_cases (startsWith part) text 0 none with missing | ⟨first, behind, rfl, last⟩
  · cases found.symm.trans missing
  · obtain rfl := Option.some.inj (found.symm.trans last)
    simpa using isCut_append first behind

end RunSigning.Text

namespace RunSigning.Markup
open RunSigning.Text

variable {text : List Char}

/-- What is placed of an element: itself, its attributes and all below it. -/
structure Element.IsPlaced (element : Element) (text : List Char) : Prop where
  opens : Opens text element.tag.span.start
  stop : IsCut text element.tag.span.stop
  attributes : ∀ held ∈ element.tag.attributes, held.IsPlaced text
  inner : ∀ child ∈ element.children, child.IsPlaced text

theorem Node.IsPlaced.element? {node : Node} (placed : node.IsPlaced text) {element : Element}
    (found : node.element? = some element) : element.IsPlaced text := by
  cases placed with
  | element opens stop attributes inner =>
      obtain rfl := Option.some.inj found
      exact ⟨opens, stop, attributes, inner⟩
  | text content => cases found
  | comment content => cases found
  | instruction target data => cases found

theorem Element.IsPlaced.child {element child : Element} (placed : element.IsPlaced text)
    (member : child ∈ elements element.children) : child.IsPlaced text := by
  obtain ⟨node, held, found⟩ := List.mem_filterMap.mp member
  exact (placed.inner node held).element? found

theorem Element.IsPlaced.child? {element child : Element} {name : String}
    (placed : element.IsPlaced text) (found : element.child? name = some child) :
    child.IsPlaced text :=
  placed.child (List.mem_of_find?_eq_some found)

/-- The value of a signature is placed. -/
theorem Element.IsPlaced.value {element : Element} {existing : Attribute}
    (placed : element.IsPlaced text) (found : element.attribute? "value" = some existing) :
    existing.valueSpan.IsPlaced text := by
  have named := List.find?_some found
  rw [Bool.and_eq_true, beq_iff_eq, beq_iff_eq] at named
  exact placed.attributes existing (List.mem_of_find?_eq_some found) named.1 named.2

/-- The text can be cut behind the name of every tag. -/
theorem isCut_tagNameAt {start : Nat} (opens : Opens text start) :
    IsCut text (start + 1 + byteLength (tagNameAt text start)) := by
  obtain ⟨before, behind, rfl, rfl⟩ := opens
  have opened : byteLength (before ++ ['<']) = byteLength before + 1 := byteLength_append _ _
  have place : after (byteLength before + 1) (before ++ '<' :: behind) = behind := by
    have whole := after_append (before ++ ['<']) behind
    rw [opened, List.append_assoc] at whole
    exact whole
  rw [tagNameAt, place, ← opened]
  cases broken : breakWhile (fun c => !(isAsciiBlank c || c == '/' || c == '>')) behind with
  | mk name rest =>
      obtain ⟨rfl, -, -⟩ := breakWhile_eq_iff.mp broken
      rw [← byteLength_append]
      simpa using isCut_append (before ++ ['<'] ++ name) rest

end RunSigning.Markup

namespace RunSigning
open RunSigning.Text RunSigning.Markup

variable {text : List Char}

/-- A signature is appended to an element whose end does not come before its beginning. -/
theorem Declaration.isPlaced_append {declaration : Declaration}
    (placed : declaration.element.IsPlaced text)
    (ordered : declaration.element.tag.span.start ≤ declaration.element.tag.span.stop)
    (value : String) : (declaration.append text value).span.IsPlaced text := by
  obtain ⟨first, middle, last, rfl, start, stop⟩ :=
    Span.IsPlaced.exists_split ⟨placed.opens.isCut, placed.stop, ordered⟩
  have source : slice declaration.element.tag.span (first ++ (middle ++ last)) = middle :=
    slice_append start stop
  rw [append]
  dsimp only
  rw [source]
  split
  · rename_i closes
    obtain ⟨inner, reversed⟩ := startsWith_iff.mp closes
    obtain rfl : middle = inner.reverse ++ ['/', '>'] := by
      rw [← List.reverse_reverse middle, reversed]
      simp
    have short : declaration.element.tag.span.stop - 2 = byteLength (first ++ inner.reverse) := by
      rw [stop, byteLength_append, byteLength_append, show byteLength ['/', '>'] = 2 from rfl]
      omega
    refine ⟨?_, placed.stop, Nat.sub_le _ _⟩
    dsimp only
    rw [short]
    simpa using isCut_append (first ++ inner.reverse) (['/', '>'] ++ last)
  · split
    · rename_i final earlier found
      have member := List.mem_of_getLast? (getLast?_of_lastElement? found)
      exact (placed.child member).stop.isPlaced
    · cases found : lastOccurrence? "</".toList middle with
      | none => exact placed.stop.isPlaced
      | some within =>
          obtain ⟨front, behind, rfl, length⟩ := isCut_of_lastOccurrence? found
          refine IsCut.isPlaced ?_
          dsimp only
          rw [start, ← length, ← byteLength_append]
          simpa using isCut_append (first ++ front) (behind ++ last)

/-- Recording edits a placed span, unless it would append to an element whose end comes first. -/
theorem Declaration.isPlaced_record {declaration : Declaration}
    (placed : declaration.element.IsPlaced text)
    (ordered : declaration.signature? = none →
      declaration.element.tag.span.start ≤ declaration.element.tag.span.stop)
    (value : String) : (declaration.record text value).span.IsPlaced text := by
  rw [record]
  cases found : declaration.signature? with
  | none => exact isPlaced_append placed (ordered found) value
  | some signature =>
      have here : signature.IsPlaced text := placed.child? found
      dsimp only
      cases valued : signature.attribute? "value" with
      | none => exact (isCut_tagNameAt here.opens).isPlaced
      | some existing => exact here.value valued

/-- What a record looks at can be cut out exactly if there is a signature or the end of the
declaration does not come before its beginning. -/
theorem Declaration.isPlaced_iff {declaration : Declaration}
    (placed : declaration.element.IsPlaced text) :
    declaration.isPlaced text = true ↔ declaration.signature?.isSome = true ∨
      declaration.element.tag.span.start ≤ declaration.element.tag.span.stop := by
  rw [isPlaced]
  cases found : declaration.signature? with
  | none =>
      rw [isSome_around?_iff]
      constructor
      · exact fun within => .inr within.ordered
      · rintro (signed | ordered)
        · cases signed
        · exact ⟨placed.opens.isCut, placed.stop, ordered⟩
  | some signature =>
      have here : signature.IsPlaced text := placed.child? found
      simp only [Option.isSome_some, true_or, iff_true]
      cases valued : signature.attribute? "value" with
      | none => rfl
      | some existing => simpa using isCut_iff.mp (here.value valued).start

theorem TextEdit.exists_apply {edit : TextEdit} {text : String}
    (placed : edit.span.IsPlaced text.toList) : ∃ edited, edit.apply text = .ok edited := by
  obtain ⟨⟨before, after⟩, around⟩ := Option.isSome_iff_exists.mp (isSome_around?_iff.mpr placed)
  rw [apply, around]
  exact ⟨_, rfl⟩

namespace Document

variable {document : Document} {declaration : Declaration}

theorem isPlaced_declaration (declared : declaration ∈ document.declarations) :
    declaration.element.IsPlaced document.text.toList := by
  rw [declarations, Tree.declarations] at declared
  split at declared
  · cases declared
  · rename_i root found
    obtain ⟨node, member, isRoot⟩ := List.exists_of_findSome?_eq_some found
    obtain ⟨element, held, rfl⟩ := List.mem_map.mp declared
    have placed := (Tree.isPlaced document.spelled node member).element? isRoot
    exact placed.child (List.mem_filter.mp held).1

/-- Without document type declaration no element of a declaration ends before it begins. -/
theorem ordered_of_plain (plain : document.tree.hasDoctype = false)
    (declared : declaration ∈ document.declarations) :
    declaration.element.tag.span.start ≤ declaration.element.tag.span.stop ∧
      ∀ child ∈ elements declaration.element.children,
        child.tag.span.start ≤ child.tag.span.stop := by
  obtain ⟨index, found⟩ := List.mem_iff_getElem?.mp declared
  have undeclared := declaredEntities_eq_nil document.spelled plain
  obtain ⟨place, entities⟩ := exists_ownSite
    (by simp [undeclared, Entities.WellFormed]) found (undeclared ▸ declaration.isOwn_nil)
  refine ⟨by simp [place.site.span_eq], ?_⟩
  intro child member
  obtain ⟨earlier, later, split⟩ := List.append_of_mem member
  obtain ⟨tag, inner, ending, reading, nodes, located, written, -⟩ :=
    place.site.exists_child split (not_forall_before_nil (entities.trans undeclared) _)
  simp [(place.site.ofChild reading located written).span_eq]

/-- Where recording looks, and when it yields an edit. In every document, also in one that declares
entities, the text can be cut at both ends of a declaration, of its signature and of its last
element, and the value of the signature is placed. So the edit always applies to the text; but
there is none if the declaration has no signature and ends before it begins. That can only be so
in a document with a document type declaration. -/
theorem recording_range (declared : declaration ∈ document.declarations) (value : String) :
    let text := document.text.toList
    let span := declaration.element.tag.span
    (Opens text span.start ∧ IsCut text span.stop) ∧
    (∀ signature ∈ declaration.signature?, Opens text signature.tag.span.start ∧
      IsCut text signature.tag.span.stop ∧
      ∀ existing ∈ signature.attribute? "value", existing.valueSpan.IsPlaced text) ∧
    (∀ last ∈ (elements declaration.element.children).getLast?,
      Opens text last.tag.span.start ∧ IsCut text last.tag.span.stop) ∧
    ((∃ edit, document.recording declaration value = .ok edit) ↔
      declaration.signature?.isSome = true ∨ span.start ≤ span.stop) ∧
    (∀ edit, document.recording declaration value = .ok edit →
      ∃ edited, edit.apply document.text = .ok edited) ∧
    (document.tree.hasDoctype = false → span.start ≤ span.stop ∧
      ∀ child ∈ elements declaration.element.children,
        child.tag.span.start ≤ child.tag.span.stop) := by
  have placed := isPlaced_declaration declared
  have cuts := Declaration.isPlaced_iff placed
  refine ⟨⟨placed.opens, placed.stop⟩, ?_, ?_, ?_, ?_, fun plain => ordered_of_plain plain declared⟩
  · intro signature found
    have here : signature.IsPlaced _ := placed.child? found
    exact ⟨here.opens, here.stop, fun existing valued => here.value valued⟩
  · intro last final
    have here := placed.child (List.mem_of_getLast? final)
    exact ⟨here.opens, here.stop⟩
  · rw [← cuts, recording]
    split <;> simp_all
  · intro edit recorded
    rw [recording] at recorded
    split at recorded
    · rename_i isPlaced
      obtain rfl := Except.ok.inj recorded
      refine TextEdit.exists_apply (Declaration.isPlaced_record placed ?_ value)
      intro unsigned
      simpa [unsigned] using cuts.mp isPlaced
    · cases recorded

end Document

/-- A document in which the end tag of a declaration stands in the replacement text of an entity,
and so before its start tag. -/
def crossedConfig : Document :=
  (Document.ofText ("<!DOCTYPE c [<!ENTITY e \"<b/></start>\">]>" ++
    "<c><start>&e;</c>")).toOption.get (by decide +kernel)

theorem crossedConfig_spans :
    crossedConfig.declarations.map (fun declaration =>
      (declaration.signature?.isSome, declaration.element.tag.span)) = [(false, ⟨44, 37⟩)] := by
  decide +kernel

/-- No value can be recorded there. -/
theorem Document.recording_range_crossedConfig :
    ∃ declaration ∈ crossedConfig.declarations, ∀ edit,
      crossedConfig.recording declaration "S" ≠ .ok edit := by
  have spans := crossedConfig_spans
  obtain ⟨declaration, single, view⟩ := List.map_eq_singleton_iff.mp spans
  obtain ⟨unsigned, span⟩ := Prod.mk.inj view
  have declared : declaration ∈ crossedConfig.declarations := by simp [single]
  obtain ⟨-, -, -, cuts, -⟩ := Document.recording_range declared "S"
  refine ⟨declaration, declared, ?_⟩
  intro edit recorded
  rcases cuts.mp ⟨edit, recorded⟩ with signed | ordered
  · rw [unsigned] at signed
    cases signed
  · rw [span] at ordered
    exact absurd ordered (by decide)

/-- Recording fails where the end of a declaration comes before its beginning. -/
theorem Document.exists_unplaced :
    ∃ declaration ∈ crossedConfig.declarations,
      declaration.element.tag.span.stop < declaration.element.tag.span.start ∧
      crossedConfig.recording declaration "S" =
        .error (.refusedEdit (.unplaced declaration.element.tag.span)) := by
  decide +kernel

end RunSigning
