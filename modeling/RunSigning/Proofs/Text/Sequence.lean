import RunSigning.Proofs.Text.Utf8

/-
This file says which bytes are those of a character and which ones only begin those of some
character. A lead byte and bytes in the ranges that it allows are always a character, and bytes
in the first of the ranges can always be completed.
-/

namespace RunSigning.Text.Utf8

/-- The bytes lie in the ranges, one in each. -/
abbrev Fit (ranges : List Range) (bytes : List UInt8) : Prop :=
  List.Forall₂ (fun range byte => range.contains byte = true) ranges bytes

theorem Range.contains_iff {range : Range} {byte : UInt8} :
    range.contains byte = true ↔ range.low.toNat ≤ byte.toNat ∧ byte.toNat ≤ range.high.toNat := by
  rw [Range.contains, Bool.and_eq_true, decide_eq_true_eq, decide_eq_true_eq, UInt8.le_iff_toNat_le,
    UInt8.le_iff_toNat_le]

theorem contains_continuation {byte : UInt8} :
    Range.continuation.contains byte = true ↔ 128 ≤ byte.toNat ∧ byte.toNat ≤ 191 :=
  Range.contains_iff

/-- A range of followers is one of continuation bytes and is not empty. -/
structure Range.Continues (range : Range) : Prop where
  low : 128 ≤ range.low.toNat
  filled : range.low.toNat ≤ range.high.toNat
  high : range.high.toNat ≤ 191

/-- The first of two or three followers is bounded more closely where the shortest form, the
scalar values or the last code point need it. -/
inductive Allows (lead : UInt8) : List Range → Prop where
  | one (high : lead.toNat ≤ 127) : Allows lead []
  | two (low : 194 ≤ lead.toNat) (high : lead.toNat ≤ 223) : Allows lead [.continuation]
  | three {range : Range} (low : 224 ≤ lead.toNat) (high : lead.toNat ≤ 239)
      (continues : range.Continues) (shortest : lead.toNat = 224 → 160 ≤ range.low.toNat)
      (scalar : lead.toNat = 237 → range.high.toNat ≤ 159) : Allows lead [range, .continuation]
  | four {range : Range} (low : 240 ≤ lead.toNat) (high : lead.toNat ≤ 244)
      (continues : range.Continues) (shortest : lead.toNat = 240 → 144 ≤ range.low.toNat)
      (last : lead.toNat = 244 → range.high.toNat ≤ 143) :
      Allows lead [range, .continuation, .continuation]

theorem Range.continuation_continues : Range.continuation.Continues := by constructor <;> decide

theorem allows_of_followers {lead : UInt8} {ranges : List Range}
    (found : followers? lead = some ranges) : Allows lead ranges := by
  simp only [followers?, UInt8.le_iff_toNat_le, UInt8.lt_iff_toNat_lt, ← UInt8.toNat_inj,
    UInt8.reduceToNat] at found
  have narrow {low high : UInt8}
      (bounds : 128 ≤ low.toNat ∧ low.toNat ≤ high.toNat ∧ high.toNat ≤ 191) :
      Range.Continues ⟨low, high⟩ := ⟨bounds.1, bounds.2.1, bounds.2.2⟩
  have shown {other : List Range} (allowed : Allows lead other) (same : some other = some ranges) :
      Allows lead ranges := Option.some.inj same ▸ allowed
  split at found
  · exact shown (.one ‹_›) found
  split at found
  · cases found
  split at found
  · exact shown (.two (by omega) ‹_›) found
  split at found
  · refine shown ?_ found
    exact .three (by omega) (by omega) (narrow (by decide)) (fun _ => by decide) (by omega)
  split at found
  · refine shown ?_ found
    exact .three (by omega) (by omega) (narrow (by decide)) (by omega) (fun _ => by decide)
  split at found
  · refine shown ?_ found
    exact .three (by omega) (by omega) Range.continuation_continues (by omega) (by omega)
  split at found
  · refine shown ?_ found
    exact .four (by omega) (by omega) (narrow (by decide)) (fun _ => by decide) (by omega)
  split at found
  · refine shown ?_ found
    exact .four (by omega) (by omega) Range.continuation_continues (by omega) (by omega)
  split at found
  · refine shown ?_ found
    exact .four (by omega) (by omega) (narrow (by decide)) (by omega) (fun _ => by decide)
  · cases found

/-- Every scalar value is that of a character. -/
theorem exists_char {value : Nat} (scalar : value < 0xD800 ∨ 0xDFFF < value ∧ value < 0x110000) :
    ∃ c : Char, c.val.toNat = value :=
  ⟨Char.ofNatAux value scalar, rfl⟩

/-- A lead byte and bytes in the ranges that it allows are those of a character. -/
theorem exists_encode {lead : UInt8} {ranges : List Range} {bytes : List UInt8}
    (found : followers? lead = some ranges) (fits : Fit ranges bytes) :
    ∃ c, String.utf8EncodeChar c = lead :: bytes := by
  have byteEq {value : Nat} {byte : UInt8} (same : value % 256 = byte.toNat) :
      UInt8.ofNat value = byte := by
    rw [← UInt8.toNat_inj, UInt8.toNat_ofNat', same]
  cases allows_of_followers found with
  | one high =>
      cases fits
      obtain ⟨c, value⟩ := @exists_char lead.toNat (by omega)
      refine ⟨c, ?_⟩
      rw [String.utf8EncodeChar.eq_1, value, if_pos (by omega), UInt8.ofNat_toNat]
  | two low high =>
      obtain _ | ⟨first, _ | _⟩ := fits
      rename_i next
      rw [contains_continuation] at first
      obtain ⟨c, value⟩ := @exists_char (lead.toNat % 32 * 64 + next.toNat % 64) (by omega)
      refine ⟨c, ?_⟩
      rw [String.utf8EncodeChar.eq_1, value, if_neg (by omega), if_pos (by omega)]
      exact congrArg₂ _ (byteEq (by omega)) (congrArg₂ _ (byteEq (by omega)) rfl)
  | three low high continues shortest scalar =>
      obtain _ | ⟨first, _ | ⟨second, _ | _⟩⟩ := fits
      rename_i next last
      rw [Range.contains_iff] at first
      rw [contains_continuation] at second
      have bounds := And.intro continues.low continues.high
      obtain ⟨c, value⟩ := @exists_char
        (lead.toNat % 16 * 4096 + next.toNat % 64 * 64 + last.toNat % 64) (by omega)
      refine ⟨c, ?_⟩
      rw [String.utf8EncodeChar.eq_1, value, if_neg (by omega), if_neg (by omega),
        if_pos (by omega)]
      exact congrArg₂ _ (byteEq (by omega))
        (congrArg₂ _ (byteEq (by omega)) (congrArg₂ _ (byteEq (by omega)) rfl))
  | four low high continues shortest last =>
      obtain _ | ⟨first, _ | ⟨second, _ | ⟨third, _ | _⟩⟩⟩ := fits
      rename_i next after final
      rw [Range.contains_iff] at first
      rw [contains_continuation] at second third
      have bounds := And.intro continues.low continues.high
      obtain ⟨c, value⟩ := @exists_char (lead.toNat % 8 * 262144 + next.toNat % 64 * 4096 +
        after.toNat % 64 * 64 + final.toNat % 64) (by omega)
      refine ⟨c, ?_⟩
      rw [String.utf8EncodeChar.eq_1, value, if_neg (by omega), if_neg (by omega),
        if_neg (by omega)]
      exact congrArg₂ _ (byteEq (by omega)) (congrArg₂ _ (byteEq (by omega))
        (congrArg₂ _ (byteEq (by omega)) (congrArg₂ _ (byteEq (by omega)) rfl)))

theorem continues_of_followers {lead : UInt8} {ranges : List Range} {range : Range}
    (found : followers? lead = some ranges) (inside : range ∈ ranges) : range.Continues := by
  have closed := Range.continuation_continues
  cases allows_of_followers found with
  | one => cases inside
  | two => simp_all
  | three _ _ continues =>
      rcases List.mem_pair.1 inside with rfl | rfl
      · exact continues
      · exact closed
  | four _ _ continues =>
      rcases List.mem_cons.1 inside with rfl | later
      · exact continues
      · simp_all

/-- The lead byte of a character is no continuation byte. -/
theorem contains_lead {lead : UInt8} {ranges : List Range}
    (found : followers? lead = some ranges) : Range.continuation.contains lead = false := by
  rw [← Bool.not_eq_true, contains_continuation]
  cases allows_of_followers found <;> omega

/-- What matching bytes against ranges finds: they lie in all ranges, one lies outside its range,
or they end before the ranges do. -/
inductive Measured (length : Nat) : List Range → List UInt8 → Match → Prop where
  | complete {ranges : List Range} {taken : List UInt8} (after : List UInt8)
      (fits : Fit ranges taken) : Measured length ranges (taken ++ after) .complete
  | broken {first : List Range} {range : Range} (later : List Range) {taken : List UInt8}
      {byte : UInt8} (after : List UInt8) (fits : Fit first taken)
      (outside : range.contains byte = false) :
      Measured length (first ++ range :: later) (taken ++ byte :: after)
        (.broken (length + taken.length))
  | cut {first : List Range} (range : Range) (later : List Range) {bytes : List UInt8}
      (fits : Fit first bytes) : Measured length (first ++ range :: later) bytes .cut

theorem Measured.cons {length : Nat} {range : Range} {ranges : List Range} {byte : UInt8}
    {bytes : List UInt8} {result : Match} (inside : range.contains byte = true)
    (measured : Measured (length + 1) ranges bytes result) :
    Measured length (range :: ranges) (byte :: bytes) result := by
  cases measured with
  | complete after fits => exact .complete after (.cons inside fits)
  | @broken first range later taken byte after fits outside =>
      rw [show length + 1 + taken.length = length + (taken.length + 1) by omega]
      exact .broken later after (.cons inside fits) outside
  | cut range later fits => exact .cut range later (.cons inside fits)

theorem matchRanges_measured (length : Nat) (ranges : List Range) (bytes : List UInt8) :
    Measured length ranges bytes (matchRanges length ranges bytes) := by
  fun_induction matchRanges length ranges bytes with
  | case1 length bytes => exact .complete bytes .nil
  | case2 length range ranges => exact .cut range ranges .nil
  | case3 length range ranges byte bytes inside ih => exact .cons inside ih
  | case4 length range ranges byte bytes outside =>
      exact .broken ranges bytes .nil (Bool.not_eq_true _ ▸ outside)

/-- The bytes of a character are a lead byte and bytes in the ranges that it allows. -/
theorem exists_followers (c : Char) : ∃ lead bytes ranges,
    String.utf8EncodeChar c = lead :: bytes ∧ followers? lead = some ranges ∧ Fit ranges bytes := by
  obtain ⟨lead, bytes, encoded, first⟩ := head_encode c
  have whole := first []
  rw [List.append_nil, head] at whole
  split at whole
  · cases whole
  · rename_i ranges found
    have measured := matchRanges_measured 1 ranges bytes
    split at whole <;> rename_i result
    · rw [result] at measured
      obtain ⟨after, fits⟩ := measured
      rename_i taken
      have lengths := fits.length_eq
      obtain ⟨-, size⟩ := Head.character.inj whole
      rw [List.length_append, ← lengths] at size
      obtain rfl : after = [] := List.eq_nil_of_length_eq_zero (by omega)
      exact ⟨lead, taken, ranges, by rw [encoded, List.append_nil], found, fits⟩
    · cases whole
    · cases whole

/-- What follows a character does not change which one it is. -/
theorem encode_append_inj {c other : Char} {rest after : List UInt8}
    (same : String.utf8EncodeChar c ++ rest = String.utf8EncodeChar other ++ after) :
    c = other ∧ rest = after := by
  obtain ⟨lead, bytes, encoded, first⟩ := head_encode c
  obtain ⟨leadOther, bytesOther, encodedOther, firstOther⟩ := head_encode other
  rw [encoded, encodedOther, List.cons_append, List.cons_append, List.cons.injEq] at same
  obtain ⟨rfl, same⟩ := same
  obtain ⟨rfl, -⟩ := Head.character.inj ((first rest).symm.trans (same ▸ firstOther after))
  obtain ⟨-, rfl⟩ := List.cons.inj (encoded.symm.trans encodedOther)
  exact ⟨rfl, List.append_cancel_left same⟩

/-- The bytes of some character begin with these. -/
def IsBeginning (bytes : List UInt8) : Prop := ∃ c, bytes <+: String.utf8EncodeChar c

theorem IsBeginning.of_prefix {bytes longer : List UInt8} (begins : IsBeginning longer)
    (shorter : bytes <+: longer) : IsBeginning bytes :=
  begins.imp fun _ isPrefix => shorter.trans isPrefix

/-- Bytes that fit the first of the ranges can be completed. -/
theorem isBeginning_of_fit {lead : UInt8} {first later : List Range} {bytes : List UInt8}
    (found : followers? lead = some (first ++ later)) (fits : Fit first bytes) :
    IsBeginning (lead :: bytes) := by
  have completes : Fit later (later.map Range.low) := by
    rw [Fit, List.forall₂_map_right_iff, List.forall₂_same]
    intro range inside
    have continues := continues_of_followers found (List.mem_append_right first inside)
    exact Range.contains_iff.2 ⟨Nat.le_refl _, continues.filled⟩
  obtain ⟨c, encoded⟩ := exists_encode found (List.rel_append fits completes)
  exact ⟨c, later.map Range.low, by rw [encoded, List.cons_append]⟩

/-- A beginning fits the first of the ranges that its lead byte allows. -/
theorem IsBeginning.exists_fit {lead : UInt8} {bytes : List UInt8}
    (begins : IsBeginning (lead :: bytes)) :
    ∃ first later, followers? lead = some (first ++ later) ∧ Fit first bytes := by
  obtain ⟨c, more, whole⟩ := begins
  obtain ⟨leadOf, followers, ranges, encoded, found, fits⟩ := exists_followers c
  rw [encoded, List.cons_append, List.cons.injEq] at whole
  obtain ⟨rfl, rfl⟩ := whole
  refine ⟨ranges.take bytes.length, ranges.drop bytes.length, ?_,
    List.forall₂_take_append ranges bytes more fits⟩
  rw [List.take_append_drop, found]

/-- Every byte of a beginning but the first one continues it. -/
theorem IsBeginning.contains_follower {lead byte : UInt8} {bytes : List UInt8}
    (begins : IsBeginning (lead :: bytes)) (inside : byte ∈ bytes) :
    Range.continuation.contains byte = true := by
  obtain ⟨first, later, found, fits⟩ := begins.exists_fit
  have narrow (range : Range) (among : range ∈ first) : range.Continues :=
    continues_of_followers found (List.mem_append_left later among)
  clear found begins
  induction fits with
  | nil => cases inside
  | @cons range head first bytes contained rest ih =>
      rcases List.mem_cons.1 inside with rfl | later
      · have continues := narrow range List.mem_cons_self
        have bounds := Range.contains_iff.1 contained
        exact contains_continuation.2
          ⟨Nat.le_trans continues.low bounds.1, Nat.le_trans bounds.2 continues.high⟩
      · exact ih later fun other among => narrow other (List.mem_cons_of_mem range among)

/-- Where bytes that fit go on past other ones that fit, the next byte lies in the next range. -/
theorem Fit.contains_next {first begun later : List Range} {range : Range}
    {taken bytes after : List UInt8} {byte : UInt8} (fits : Fit first taken)
    (goesOn : Fit begun bytes) (ranged : begun <+: first ++ range :: later)
    (within : bytes <+: taken ++ byte :: after) (longer : taken.length < bytes.length) :
    range.contains byte = true := by
  induction fits generalizing begun bytes with
  | nil =>
      cases goesOn with
      | nil => cases longer
      | cons inside rest =>
          obtain ⟨rfl, -⟩ := List.cons_prefix_cons.1 ranged
          obtain ⟨rfl, -⟩ := List.cons_prefix_cons.1 within
          exact inside
  | cons head tail ih =>
      cases goesOn with
      | nil => cases longer
      | cons inside rest =>
          exact ih rest (List.cons_prefix_cons.1 ranged).2 (List.cons_prefix_cons.1 within).2
            (Nat.lt_of_succ_lt_succ longer)

end RunSigning.Text.Utf8
