import RunSigning.Program
import RunSigning.Proofs.Recording.Range
import RunSigning.Proofs.Recording.TextSession
import RunSigning.Proofs.Text.Repair

/-
This file says what an edit does to the bytes of a text. Both ends of its span have to be boundaries
of characters, the replacement takes the place of the bytes between them, and one more edit puts
the removed text back. Words of 64 bits are wide enough for all of it.
-/

namespace RunSigning.Text.Utf8

/-- The bytes can be cut at the beginning, at the end, and in front of every byte that continues no
character. -/
def isBoundary (bytes : List UInt8) (offset : Nat) : Bool :=
  offset == 0 ||
    match bytes[offset]? with
    | some byte => !Range.continuation.contains byte
    | none => offset == bytes.length

@[simp] theorem length_encode (text : List Char) : (encode text).length = byteLength text := by
  induction text with
  | nil => rfl
  | cons c text ih =>
      rw [encode_cons, List.length_append, String.length_utf8EncodeChar, ih, byteLength_cons]

/-- Within a character there is no boundary. -/
theorem le_of_isBoundary_cons {c : Char} {text : List Char} {offset : Nat} (behind : 0 < offset)
    (boundary : isBoundary (encode (c :: text)) offset = true) : c.utf8Size ≤ offset := by
  by_contra inside
  obtain ⟨lead, bytes, ranges, encoded, -, -⟩ := exists_followers c
  have size := String.length_utf8EncodeChar c
  obtain ⟨place, rfl⟩ := Nat.exists_eq_add_of_lt behind
  rw [Nat.zero_add] at inside boundary
  rw [encoded, List.length_cons] at size
  have short : place < bytes.length := by omega
  have found : (encode (c :: text))[place + 1]? = some bytes[place] := by
    rw [encode_cons, encoded, List.cons_append, List.getElem?_cons_succ,
      List.getElem?_append_left short, List.getElem?_eq_getElem short]
  have begins := isBeginning_encode c
  rw [encoded] at begins
  have continues := begins.contains_follower (List.getElem_mem short)
  rw [isBoundary, found] at boundary
  simp [continues] at boundary

/-- Behind a character the boundaries are those of the text behind it. -/
theorem isBoundary_of_cons {c : Char} {text : List Char} {offset : Nat}
    (boundary : isBoundary (encode (c :: text)) (c.utf8Size + offset) = true) :
    isBoundary (encode text) offset = true := by
  have size := String.length_utf8EncodeChar c
  have positive := c.utf8Size_pos
  rw [isBoundary, encode_cons, ← size, List.getElem?_append_right (Nat.le_add_right _ _),
    Nat.add_sub_cancel_left, List.length_append] at boundary
  have behind : ((String.utf8EncodeChar c).length + offset == 0) = false := by
    rw [beq_eq_false_iff_ne]
    omega
  rw [behind, Bool.false_or] at boundary
  rw [isBoundary, Bool.or_eq_true]
  refine .inr ?_
  cases found : (encode text)[offset]? with
  | some byte => simpa [found] using boundary
  | none => simpa [found] using boundary

/-- A text can be cut exactly at the boundaries of its bytes. -/
theorem isBoundary_iff {text : List Char} {offset : Nat} :
    isBoundary (encode text) offset = true ↔ IsCut text offset := by
  constructor
  · intro boundary
    induction text generalizing offset with
    | nil =>
        have empty : offset = 0 := by simpa [isBoundary] using boundary
        exact ⟨[], [], rfl, empty.symm⟩
    | cons c text ih =>
        rcases Nat.eq_zero_or_pos offset with rfl | behind
        · exact ⟨[], c :: text, rfl, rfl⟩
        · obtain ⟨place, rfl⟩ := Nat.exists_eq_add_of_le (le_of_isBoundary_cons behind boundary)
          obtain ⟨before, after, rfl, length⟩ := ih (isBoundary_of_cons boundary)
          exact ⟨c :: before, after, rfl, by rw [byteLength_cons, length]⟩
  · rintro ⟨before, after, rfl, rfl⟩
    rw [isBoundary, encode_append, ← length_encode, List.getElem?_append_right (Nat.le_refl _),
      Nat.sub_self, Bool.or_eq_true]
    refine .inr ?_
    cases after with
    | nil => simp
    | cons c after =>
        have starts := head?_encode_append (List.cons_ne_nil c after) []
        rw [List.append_nil] at starts
        cases found : (encode (c :: after))[0]? with
        | some byte =>
            have leads := starts byte (by rwa [List.head?_eq_getElem?])
            simp [leads]
        | none =>
            have positive := c.utf8Size_pos
            rw [List.getElem?_eq_none_iff, length_encode, byteLength_cons] at found
            omega

end RunSigning.Text.Utf8

namespace RunSigning
open RunSigning.Text RunSigning.Text.Utf8

namespace TextEdit

variable {edit : TextEdit} {text edited : String}

/-- An edit is accepted exactly if its span covers a part of the text, which it replaces. -/
theorem apply_eq_ok_iff_split : edit.apply text = .ok edited ↔ ∃ first middle last,
    text.toList = first ++ (middle ++ last) ∧
    edit.span = ⟨byteLength first, byteLength first + byteLength middle⟩ ∧
    edited = String.ofList (first ++ (edit.replacement.toList ++ last)) := by
  constructor
  · intro success
    have placed := TextSession.apply_eq_ok_iff_isPlaced.mp ⟨_, success⟩
    obtain ⟨first, middle, last, split, start, stop⟩ := placed.exists_split
    have applied := @apply_append edit first middle last start stop
    rw [← split, String.ofList_toList, success] at applied
    exact ⟨first, middle, last, split, congrArg₂ Span.mk start stop, Except.ok.inj applied⟩
  · rintro ⟨first, middle, last, split, span, rfl⟩
    have applied := @apply_append edit first middle last (by rw [span]) (by rw [span])
    rwa [← split, String.ofList_toList] at applied

/-- An edit that is refused is so for its span. -/
theorem apply_eq_error {refusal : Error} (refused : edit.apply text = .error refusal) :
    refusal = .refusedEdit (.outOfRange edit.span (encodeString text).length) := by
  rw [apply, ← length_encode] at refused
  split at refused
  · cases refused
  · exact (Except.error.inj refused).symm

/-- The span has its ends in order, in the bytes and at boundaries of characters. -/
def Fits (bytes : List UInt8) (span : Span) : Prop :=
  span.start ≤ span.stop ∧ span.stop ≤ bytes.length ∧ isBoundary bytes span.start = true ∧
    isBoundary bytes span.stop = true

instance (bytes : List UInt8) (span : Span) : Decidable (Fits bytes span) :=
  inferInstanceAs (Decidable (_ ∧ _))

theorem exists_apply_iff_fits :
    (∃ edited, edit.apply text = .ok edited) ↔ Fits (encodeString text) edit.span := by
  rw [TextSession.apply_eq_ok_iff_isPlaced, Fits, encodeString, isBoundary_iff, isBoundary_iff]
  constructor
  · rintro ⟨start, stop, ordered⟩
    refine ⟨ordered, ?_, start, stop⟩
    obtain ⟨before, after, split, length⟩ := stop
    rw [length_encode, split, byteLength_append, length]
    exact Nat.le_add_right _ _
  · rintro ⟨ordered, -, start, stop⟩
    exact ⟨start, stop, ordered⟩

/-- The edit that puts the removed text back. -/
def undo (edit : TextEdit) (removed : String) : TextEdit :=
  ⟨⟨edit.span.start, edit.span.start + (encodeString edit.replacement).length⟩, removed⟩

/-- The bytes before the span and behind it stay, and what was between them can be put back. -/
theorem spliced_of_apply (success : edit.apply text = .ok edited) :
    encodeString edited = (encodeString text).take edit.span.start ++
      (encodeString edit.replacement ++ (encodeString text).drop edit.span.stop) ∧
    ∃ removed, encodeString removed =
        ((encodeString text).drop edit.span.start).take (edit.span.stop - edit.span.start) ∧
      (edit.undo removed).apply edited = .ok text := by
  obtain ⟨first, middle, last, split, span, rfl⟩ := apply_eq_ok_iff_split.mp success
  have bytes : encodeString text = encode first ++ (encode middle ++ encode last) := by
    rw [encodeString, split, encode_append, encode_append]
  have before : (encodeString text).take (byteLength first) = encode first := by
    rw [bytes, ← length_encode, List.take_left]
  have between : (encodeString text).drop (byteLength first) = encode middle ++ encode last := by
    rw [bytes, ← length_encode, List.drop_left]
  have behind : (encodeString text).drop (byteLength first + byteLength middle) = encode last := by
    rw [← List.drop_drop, between, ← length_encode, List.drop_left]
  rw [span]
  dsimp only
  rw [before, between, behind, Nat.add_sub_cancel_left, ← length_encode middle, List.take_left]
  refine ⟨?_, String.ofList middle, ?_, apply_eq_ok_iff_split.mpr
    ⟨first, edit.replacement.toList, last, String.toList_ofList, ?_, ?_⟩⟩
  · rw [encodeString, String.toList_ofList, encode_append, encode_append]
    rfl
  · rw [encodeString, String.toList_ofList]
  · rw [undo, span, encodeString, length_encode]
  · rw [undo, String.toList_ofList, ← split, String.ofList_toList]

end TextEdit

namespace Word

/-- The difference of two words, unless it is less than zero. -/
def subtract? (first second : UInt64) : Option UInt64 :=
  if second ≤ first then some (first - second) else none

/-- The sum of two words, unless it does not fit into one. -/
def add? (first second : UInt64) : Option UInt64 :=
  if first.toNat + second.toNat < UInt64.size then some (first + second) else none

theorem subtract?_eq {first second : Nat} (ordered : second ≤ first) (fits : first < UInt64.size) :
    subtract? (.ofNat first) (.ofNat second) = some (.ofNat (first - second)) := by
  have value := UInt64.toNat_ofNat_of_lt' fits
  have less := UInt64.toNat_ofNat_of_lt' (Nat.lt_of_le_of_lt ordered fits)
  have inRange : UInt64.ofNat second ≤ UInt64.ofNat first := by
    rw [UInt64.le_iff_toNat_le, value, less]
    exact ordered
  rw [subtract?, if_pos inRange, Option.some.injEq, ← UInt64.toNat_inj,
    UInt64.toNat_sub_of_le _ _ inRange, value, less,
    UInt64.toNat_ofNat_of_lt' (Nat.lt_of_le_of_lt (Nat.sub_le _ _) fits)]

theorem add?_eq {first second : Nat} (fits : first + second < UInt64.size) :
    add? (.ofNat first) (.ofNat second) = some (.ofNat (first + second)) := by
  have value := UInt64.toNat_ofNat_of_lt' (Nat.lt_of_le_of_lt (Nat.le_add_right _ _) fits)
  have other := UInt64.toNat_ofNat_of_lt' (Nat.lt_of_le_of_lt (Nat.le_add_left _ _) fits)
  rw [add?, value, other, if_pos fits, UInt64.ofNat_add]

end Word

namespace TextEdit

/-- The bytes of the edited text in words: those of the text, less the removed ones, and those of
the replacement. -/
def room? (start stop length added : UInt64) : Option UInt64 := do
  let removed ← Word.subtract? stop start
  let kept ← Word.subtract? length removed
  Word.add? kept added

theorem room?_eq {start stop length added : Nat} (ordered : start ≤ stop) (within : stop ≤ length)
    (small : 2 * length < UInt64.size) (smallAdded : 2 * added < UInt64.size) :
    room? (.ofNat start) (.ofNat stop) (.ofNat length) (.ofNat added) =
      some (.ofNat (length - (stop - start) + added)) := by
  have size : UInt64.size = 2 ^ 64 := rfl
  have removed := Word.subtract?_eq ordered (by omega)
  have kept := @Word.subtract?_eq length (stop - start) (by omega) (by omega)
  have room := @Word.add?_eq (length - (stop - start)) added (by omega)
  simp only [room?, removed, kept, room, Option.bind_eq_bind, Option.bind_some]

/-- An edit as it is made with words. The offsets are only compared before anything is refused, and
the bytes of the edited text are counted before they are put together. There is no result if a word
does not hold what is calculated. -/
def applyWords? (start stop : UInt64) (replacement text : List UInt8) :
    Option (Except Error (UInt64 × List UInt8)) :=
  let length := UInt64.ofNat text.length
  if stop < start ∨ length < stop ∨ isBoundary text start.toNat = false ∨
      isBoundary text stop.toNat = false then
    some (.error (.refusedEdit (.outOfRange ⟨start.toNat, stop.toNat⟩ length.toNat)))
  else do
    let room ← room? start stop length (.ofNat replacement.length)
    return .ok (room, text.take start.toNat ++ (replacement ++ text.drop stop.toNat))

/-- Words hold all that is calculated if each text has less than half of the bytes that they can
count. -/
theorem applyWords?_eq {start stop : UInt64} {replacement text : String}
    (small : 2 * (encodeString text).length < UInt64.size)
    (smallReplacement : 2 * (encodeString replacement).length < UInt64.size) :
    applyWords? start stop (encodeString replacement) (encodeString text) =
      some ((apply ⟨⟨start.toNat, stop.toNat⟩, replacement⟩ text).map fun edited =>
        (.ofNat (encodeString edited).length, encodeString edited)) := by
  have size : UInt64.size = 2 ^ 64 := rfl
  have length := UInt64.toNat_ofNat_of_lt' (show (encodeString text).length < UInt64.size by omega)
  have refuses : (stop < start ∨ UInt64.ofNat (encodeString text).length < stop ∨
      isBoundary (encodeString text) start.toNat = false ∨
        isBoundary (encodeString text) stop.toNat = false) ↔
          ¬Fits (encodeString text) ⟨start.toNat, stop.toNat⟩ := by
    simp only [Fits, UInt64.lt_iff_toNat_lt, length, not_and_or, Nat.not_le, Bool.not_eq_true]
  have accepts := @exists_apply_iff_fits ⟨⟨start.toNat, stop.toNat⟩, replacement⟩ text
  rw [applyWords?, length]
  cases applied : apply ⟨⟨start.toNat, stop.toNat⟩, replacement⟩ text with
  | error refusal =>
      have misfits : ¬Fits (encodeString text) ⟨start.toNat, stop.toNat⟩ := by
        rw [← accepts, applied]
        simp
      rw [if_pos (refuses.mpr misfits), apply_eq_error applied]
      rfl
  | ok edited =>
      have fits := accepts.mp ⟨edited, applied⟩
      obtain ⟨spliced, -⟩ := spliced_of_apply applied
      have total := congrArg List.length spliced
      rw [List.length_append, List.length_append, List.length_take, List.length_drop] at total
      have room := room?_eq fits.1 fits.2.1 small smallReplacement
      dsimp only at total room spliced
      rw [UInt64.ofNat_toNat, UInt64.ofNat_toNat] at room
      have counted : (encodeString text).length - (stop.toNat - start.toNat) +
          (encodeString replacement).length = (encodeString edited).length := by
        obtain ⟨ordered, within, -⟩ := fits
        dsimp only at ordered within
        omega
      rw [if_neg (mt refuses.mp (not_not_intro fits)), room, counted, ← spliced]
      rfl

/-- An edit is accepted exactly if its span has its ends in order, within the text and at boundaries
of characters; otherwise it is refused for its span. Accepted, it puts the bytes of the replacement
in the place of the bytes of the span, and the edit that puts the removed text back is accepted
too and gives the old text. Words of 64 bits hold all that is calculated for texts that they can
address. -/
theorem apply_splices (edit : TextEdit) (text : String) :
    ((∃ edited, edit.apply text = .ok edited) ↔ Fits (encodeString text) edit.span) ∧
    (¬Fits (encodeString text) edit.span → edit.apply text =
      .error (.refusedEdit (.outOfRange edit.span (encodeString text).length))) ∧
    (∀ edited, edit.apply text = .ok edited →
      encodeString edited = (encodeString text).take edit.span.start ++
        (encodeString edit.replacement ++ (encodeString text).drop edit.span.stop) ∧
      ∃ removed, encodeString removed = ((encodeString text).drop edit.span.start).take
          (edit.span.stop - edit.span.start) ∧
        (edit.undo removed).apply edited = .ok text) ∧
    ∀ start stop : UInt64, edit.span = ⟨start.toNat, stop.toNat⟩ →
      2 * (encodeString text).length < UInt64.size →
      2 * (encodeString edit.replacement).length < UInt64.size →
        applyWords? start stop (encodeString edit.replacement) (encodeString text) =
          some ((edit.apply text).map fun edited =>
            (.ofNat (encodeString edited).length, encodeString edited)) := by
  refine ⟨exists_apply_iff_fits, fun misfits => ?_, fun edited => spliced_of_apply, ?_⟩
  · cases applied : edit.apply text with
    | error refusal => rw [apply_eq_error applied]
    | ok edited => exact absurd (exists_apply_iff_fits.mp ⟨edited, applied⟩) misfits
  · intro start stop span small smallReplacement
    obtain ⟨⟨_, _⟩, replacement⟩ := edit
    cases span
    exact applyWords?_eq small smallReplacement

/-- A letter of two bytes can be replaced, but not its second byte alone. -/
theorem apply_splices_umlaut :
    let letter : TextEdit := ⟨⟨1, 3⟩, "b"⟩
    let half : TextEdit := ⟨⟨2, 3⟩, "b"⟩
    (∃ edited removed, letter.apply "<ä/>" = .ok edited ∧
      encodeString edited = [0x3C, 0x62, 0x2F, 0x3E] ∧ encodeString removed = [0xC3, 0xA4] ∧
      (letter.undo removed).apply edited = .ok "<ä/>") ∧
    half.apply "<ä/>" = .error (.refusedEdit (.outOfRange ⟨2, 3⟩ 5)) ∧
    applyWords? 1 3 [0x62] (encodeString "<ä/>") = some (.ok (4, [0x3C, 0x62, 0x2F, 0x3E])) := by
  have bytes : encodeString "<ä/>" = [0x3C, 0xC3, 0xA4, 0x2F, 0x3E] := by decide +kernel
  have letter : encodeString "b" = [0x62] := by decide +kernel
  obtain ⟨accepts, -, splices, words⟩ := apply_splices ⟨⟨1, 3⟩, "b"⟩ "<ä/>"
  obtain ⟨-, refuses, -⟩ := apply_splices ⟨⟨2, 3⟩, "b"⟩ "<ä/>"
  rw [bytes] at accepts splices words refuses
  obtain ⟨edited, applied⟩ := accepts.mpr (by decide)
  obtain ⟨spliced, removed, taken, undone⟩ := splices edited applied
  have whole : encodeString edited = [0x3C, 0x62, 0x2F, 0x3E] := by rw [spliced, letter]; rfl
  have made := words 1 3 rfl (by decide) (by decide +kernel)
  rw [applied, letter] at made
  refine ⟨⟨edited, removed, applied, whole, taken, undone⟩, refuses (by decide), ?_⟩
  rw [bytes, made]
  simp [Except.map, whole]

end TextEdit

end RunSigning
