import RunSigning.Document
import RunSigning.Proofs.Text.Repair

/-
This file says where decoding fails. The fault stands behind the longest beginning of the bytes
that is UTF-8, and it is incomplete exactly if further bytes could still make all of them UTF-8. So
reading a document from bytes is reading it from the text that they encode.
-/

namespace RunSigning.Text.Utf8

/-- Where bytes are not UTF-8: behind some text stands an ill-formed part that no further bytes
complete, or the beginning of a character that is cut off. -/
inductive Fails : List UInt8 → Fault → Prop where
  | illFormed (kept : List Char) {part rest : List UInt8} (isPart : IsIllFormedPart part rest)
      (dead : ¬IsBeginning (part ++ rest)) :
      Fails (encode kept ++ (part ++ rest)) ⟨(encode kept).length, some part.length⟩
  | incomplete (kept : List Char) {part : List UInt8} (begins : IsBeginning part)
      (filled : part ≠ []) (cut : ∀ c, ¬String.utf8EncodeChar c <+: part) :
      Fails (encode kept ++ part) ⟨(encode kept).length, none⟩

/-- A character in front moves the fault. -/
theorem Fails.cons {bytes : List UInt8} {fault : Fault} (c : Char) (fails : Fails bytes fault) :
    Fails (String.utf8EncodeChar c ++ bytes)
      { fault with index := (String.utf8EncodeChar c).length + fault.index } := by
  cases fails with
  | illFormed kept isPart dead =>
      have whole := Fails.illFormed (c :: kept) isPart dead
      rwa [encode_cons, List.append_assoc, List.length_append] at whole
  | incomplete kept begins filled cut =>
      have whole := Fails.incomplete (c :: kept) begins filled cut
      rwa [encode_cons, List.append_assoc, List.length_append] at whole

/-- The fault that decoding finds is counted from where decoding began. -/
theorem fails_of_decodeFrom {index : Nat} {before : List Char} {bytes : List UInt8} {fault : Fault}
    (refused : decodeFrom index before bytes = .error fault) :
    ∃ place, fault = { place with index := index + place.index } ∧ Fails bytes place := by
  fun_induction decodeFrom index before bytes with
  | case1 => cases refused
  | case2 index before lead rest c size first ih =>
      have opens := head_opens lead rest
      rw [first] at opens
      obtain ⟨after, encoded⟩ | _ | _ := opens
      rename_i bytes
      rw [List.drop_left] at ih refused
      obtain ⟨place, rfl, fails⟩ := ih refused
      have moved := fails.cons c
      rw [encoded, List.cons_append] at moved
      refine ⟨_, ?_, moved⟩
      rw [List.length_cons]
      simp only [Nat.add_assoc, Nat.add_left_comm 1]
  | case3 index before lead rest length first =>
      have opens := head_opens lead rest
      rw [first] at opens
      obtain _ | ⟨isPart, dead⟩ | _ := opens
      rename_i part after
      cases refused
      have fails := Fails.illFormed [] isPart dead
      rw [List.length_cons, Nat.add_comm part.length] at fails
      exact ⟨_, rfl, fails⟩
  | case4 index before lead rest first =>
      have opens := head_opens lead rest
      rw [first] at opens
      obtain _ | _ | ⟨begins, cut⟩ := opens
      cases refused
      exact ⟨_, rfl, .incomplete [] begins (List.cons_ne_nil _ _) cut⟩

/-- Decoding fails with the fault of bytes that are not UTF-8. -/
theorem exists_fails {bytes : List UInt8} (illFormed : ¬IsWellFormed bytes) :
    ∃ fault, decode bytes = .error fault ∧ Fails bytes fault := by
  cases decoded : decode bytes with
  | ok text => exact absurd ⟨text, decode_eq_ok_iff.1 decoded⟩ illFormed
  | error fault =>
      obtain ⟨place, rfl, fails⟩ := fails_of_decodeFrom decoded
      exact ⟨_, rfl, by rwa [Nat.zero_add]⟩

/-- Of two texts at the beginning of the same bytes one goes on where the other one ends. -/
theorem encode_append_cases {text kept : List Char} {more tail : List UInt8}
    (same : encode text ++ more = encode kept ++ tail) :
    (∃ later, kept = text ++ later) ∨ ∃ c after, text = kept ++ c :: after ∧
      tail = String.utf8EncodeChar c ++ (encode after ++ more) := by
  induction kept generalizing text with
  | nil =>
      cases text with
      | nil => exact .inl ⟨[], rfl⟩
      | cons c after =>
          refine .inr ⟨c, after, rfl, ?_⟩
          rw [← List.append_assoc, ← encode_cons]
          exact same.symm
  | cons d kept ih =>
      cases text with
      | nil => exact .inl ⟨d :: kept, rfl⟩
      | cons c text =>
          rw [encode_cons, encode_cons, List.append_assoc, List.append_assoc] at same
          obtain ⟨rfl, behind⟩ := encode_append_inj same
          refine (ih behind).imp ?_ ?_
          · rintro ⟨later, rfl⟩
            exact ⟨later, rfl⟩
          · rintro ⟨d, after, rfl, tail_eq⟩
            exact ⟨d, after, rfl, tail_eq⟩

/-- No text reaches past a place where no character stands. -/
theorem length_le_of_encode {text kept : List Char} {more tail : List UInt8}
    (same : encode text ++ more = encode kept ++ tail)
    (missing : ∀ c, ¬String.utf8EncodeChar c <+: tail) :
    (encode text).length ≤ (encode kept).length := by
  rcases encode_append_cases same with ⟨later, rfl⟩ | ⟨c, after, -, tail_eq⟩
  · rw [encode_append, List.length_append]
    exact Nat.le_add_right _ _
  · exact absurd ⟨_, tail_eq.symm⟩ (missing c)

/-- Behind text nothing is UTF-8 that does not begin with a character. -/
theorem not_isWellFormed_append {kept : List Char} {tail : List UInt8} (filled : tail ≠ [])
    (missing : ∀ c, ¬String.utf8EncodeChar c <+: tail) : ¬IsWellFormed (encode kept ++ tail) := by
  rintro ⟨text, encoded⟩
  have within := length_le_of_encode ((List.append_nil _).trans encoded) missing
  rw [encoded, List.length_append] at within
  have longer := List.length_pos_iff.2 filled
  omega

/-- What a fault says of the bytes that it was found in. -/
structure Fault.Describes (fault : Fault) (bytes : List UInt8) : Prop where
  within : fault.index ≤ bytes.length
  kept : IsWellFormed (bytes.take fault.index)
  longest : ∀ length ≤ bytes.length, IsWellFormed (bytes.take length) → length ≤ fault.index
  part : ∀ length ∈ fault.length?, ∃ part rest, bytes.drop fault.index = part ++ rest ∧
    IsIllFormedPart part rest ∧ part.length = length
  incomplete : fault.length? = none ↔ ∃ more, IsWellFormed (bytes ++ more)

theorem Fails.describes {bytes : List UInt8} {fault : Fault} (fails : Fails bytes fault) :
    fault.Describes bytes := by
  -- The longest beginning that is UTF-8 ends where no character stands.
  have longest {kept : List Char} {tail : List UInt8}
      (missing : ∀ c, ¬String.utf8EncodeChar c <+: tail) (length : Nat)
      (short : length ≤ (encode kept ++ tail).length)
      (wellFormed : IsWellFormed ((encode kept ++ tail).take length)) :
      length ≤ (encode kept).length := by
    obtain ⟨text, encoded⟩ := wellFormed
    have whole := List.take_append_drop length (encode kept ++ tail)
    rw [← encoded] at whole
    have size := congrArg List.length encoded
    rw [List.length_take, Nat.min_eq_left short] at size
    exact size ▸ length_le_of_encode whole missing
  have within (kept : List Char) (tail : List UInt8) :
      (encode kept).length ≤ (encode kept ++ tail).length := by
    rw [List.length_append]
    exact Nat.le_add_right _ _
  cases fails with
  | @illFormed kept part rest isPart dead =>
      refine ⟨within kept _, ⟨kept, (List.take_left).symm⟩, longest isPart.illFormed, ?_, ?_⟩
      · rintro length ⟨⟩
        exact ⟨part, rest, List.drop_left, isPart, rfl⟩
      · simp only [reduceCtorEq, false_iff]
        rintro ⟨more, wellFormed⟩
        rw [List.append_assoc] at wellFormed
        refine not_isWellFormed_append ?_ (fun c begins => ?_) wellFormed
        · simp [isPart.filled]
        · rcases List.prefix_or_prefix_of_prefix begins (List.prefix_append _ more) with
            shorter | longer
          · exact isPart.illFormed c shorter
          · exact dead ⟨c, longer⟩
  | @incomplete kept part begins filled cut =>
      refine ⟨within kept _, ⟨kept, (List.take_left).symm⟩, longest cut, by rintro length ⟨⟩, ?_⟩
      simp only [true_iff]
      obtain ⟨c, more, whole⟩ := begins
      exact ⟨more, kept ++ [c], by simp [whole]⟩

/-- What kind of bytes a fault found. -/
def Fault.kind (fault : Fault) : String :=
  match fault.length? with
  | some length => "invalid utf-8 sequence of " ++ toString length ++ " bytes"
  | none => "incomplete utf-8 byte sequence"

theorem Fault.message_eq (fault : Fault) :
    fault.message = fault.kind ++ " from index " ++ toString fault.index := by
  have wording : " bytes from index " = " bytes" ++ " from index " := by decide +kernel
  have whole : "incomplete utf-8 byte sequence from index " =
      "incomplete utf-8 byte sequence" ++ " from index " := by decide +kernel
  rw [message, kind]
  cases fault.length? with
  | some length =>
      dsimp only
      rw [wording, ← String.append_assoc]
  | none =>
      dsimp only
      rw [whole]

theorem not_mem_toString (number : Nat) : 'p' ∉ (toString number).toList := by
  intro member
  rw [Nat.toString_eq_repr, Nat.toList_repr] at member
  exact absurd (Nat.isDigit_of_mem_toDigits (by decide) (by decide) member) (by decide)

end RunSigning.Text.Utf8

namespace RunSigning
open RunSigning.Text RunSigning.Text.Utf8

/-- The message of a fault speaks of incomplete bytes exactly if the fault does. -/
theorem DocumentFault.incomplete_infix_message_iff (fault : Utf8.Fault) :
    "incomplete".toList <:+: (DocumentFault.encoding fault).message.toList ↔
      fault.length? = none := by
  rw [DocumentFault.message, Fault.message_eq, Fault.kind]
  cases fault.length? with
  | none =>
      simp only [iff_true, String.toList_append]
      refine ⟨"invalid UTF-8: ".toList, " utf-8 byte sequence".toList ++
        (" from index ".toList ++ (toString fault.index).toList), ?_⟩
      have split : "incomplete utf-8 byte sequence".toList =
          "incomplete".toList ++ " utf-8 byte sequence".toList := by decide +kernel
      rw [split]
      simp only [List.append_assoc]
  | some length =>
      simp only [reduceCtorEq, iff_false, String.toList_append]
      intro within
      -- No other word of the message has a letter p.
      have member := within.subset (show 'p' ∈ "incomplete".toList by decide +kernel)
      have first := not_mem_toString length
      have last := not_mem_toString fault.index
      have words : 'p' ∉ "invalid UTF-8: ".toList ∧ 'p' ∉ "invalid utf-8 sequence of ".toList ∧
          'p' ∉ " bytes".toList ∧ 'p' ∉ " from index ".toList := by decide +kernel
      simp only [List.mem_append, first, last, words, or_self] at member

/-- The document that bytes encode, if texts are read by the given reader. -/
def Document.ofBytesWith (read : String → Except DocumentFault Document) (bytes : List UInt8) :
    Except DocumentFault Document :=
  match decode bytes with
  | .ok text => read (String.ofList text)
  | .error fault => .error (.encoding fault)

theorem Document.ofBytesWith_ofText (bytes : List UInt8) :
    Document.ofBytesWith Document.ofText bytes = Document.ofBytes bytes := rfl

/-- Reading the bytes of a text is reading the text. Bytes that are those of no text are refused
before any text is read, whatever reads texts. The fault stands where the longest beginning that is
UTF-8 ends, and its message calls the bytes incomplete exactly if more bytes could make all of them
UTF-8. -/
theorem Document.ofBytes_agrees :
    (∀ text : String, Document.ofBytes (encode text.toList) = Document.ofText text) ∧
    ∀ bytes, (∀ text : String, encode text.toList ≠ bytes) →
      ∃ fault : Utf8.Fault, fault.Describes bytes ∧
        Document.ofBytes bytes = .error (.encoding fault) ∧
        (∀ read, Document.ofBytesWith read bytes = .error (.encoding fault)) ∧
        (DocumentFault.encoding fault).message =
          "invalid UTF-8: " ++ (fault.kind ++ " from index " ++ toString fault.index) ∧
        ("incomplete".toList <:+: (DocumentFault.encoding fault).message.toList ↔
          ∃ more, IsWellFormed (bytes ++ more)) := by
  refine ⟨fun text => ?_, fun bytes apart => ?_⟩
  · rw [Document.ofBytes, decode_encode]
    dsimp only
    rw [String.ofList_toList]
  · have illFormed : ¬IsWellFormed bytes := by
      rintro ⟨text, encoded⟩
      exact apart (String.ofList text) (by rw [String.toList_ofList, encoded])
    obtain ⟨fault, decoded, fails⟩ := exists_fails illFormed
    have refused (read : String → Except DocumentFault Document) :
        Document.ofBytesWith read bytes = .error (.encoding fault) := by
      rw [Document.ofBytesWith, decoded]
    have message : (DocumentFault.encoding fault).message =
        "invalid UTF-8: " ++ (fault.kind ++ " from index " ++ toString fault.index) := by
      rw [DocumentFault.message, fault.message_eq]
    have whole : Document.ofBytes bytes = .error (.encoding fault) := by
      rw [← Document.ofBytesWith_ofText, refused]
    exact ⟨fault, fails.describes, whole, refused, message,
      (DocumentFault.incomplete_infix_message_iff fault).trans fails.describes.incomplete⟩

/-- Two of the three bytes of a character behind a bracket and a letter. -/
theorem Document.ofBytes_agrees_cutCharacter :
    (∀ text : String, encode text.toList ≠ [0x3C, 0x61, 0xE2, 0x82]) ∧
    ∃ fault : Utf8.Fault, fault.index = 2 ∧ fault.Describes [0x3C, 0x61, 0xE2, 0x82] ∧
      Document.ofBytes [0x3C, 0x61, 0xE2, 0x82] = .error (.encoding fault) := by
  have bracket : head 0x3C [0x61, 0xE2, 0x82] = .character '<' 0 := by decide
  have letter : head 0x61 [0xE2, 0x82] = .character 'a' 0 := by decide
  have cut : head 0xE2 [0x82] = .incomplete := by decide
  have decoded : decode [0x3C, 0x61, 0xE2, 0x82] = .error ⟨2, none⟩ := by
    simp [decode, decodeFrom, bracket, letter, cut]
  have apart (text : String) : encode text.toList ≠ [0x3C, 0x61, 0xE2, 0x82] := by
    intro encoded
    rw [decode_eq_ok_iff.2 encoded] at decoded
    cases decoded
  obtain ⟨fault, describes, refused, -⟩ := Document.ofBytes_agrees.2 _ apart
  refine ⟨apart, fault, ?_, describes, refused⟩
  rw [Document.ofBytes, decoded] at refused
  cases refused
  rfl

end RunSigning
