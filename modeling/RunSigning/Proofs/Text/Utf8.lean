import Mathlib.Data.List.Forall2
import RunSigning.Text.Utf8

/-
This file says that a text is read back from its bytes. The lead byte of every character allows
exactly the bytes that follow it.
-/

namespace RunSigning.Text.Utf8

/-- The byte that continues a character with six more bits. -/
def follower (bits : Nat) : UInt8 := UInt8.ofNat (bits % 64 + 128)

theorem contains_follower (bits : Nat) : Range.continuation.contains (follower bits) = true := by
  have all : ∀ low < 64, Range.continuation.contains (UInt8.ofNat (low + 128)) = true := by decide
  exact all _ (Nat.mod_lt _ (by decide))

theorem toNat_follower (bits : Nat) : (follower bits).toNat % 64 = bits % 64 := by
  rw [follower, UInt8.toNat_ofNat']
  omega

/-- Bytes in their ranges complete a character. -/
theorem matchRanges_complete {ranges : List Range} {bytes rest : List UInt8} {length : Nat}
    (fits : List.Forall₂ (fun range byte => range.contains byte = true) ranges bytes) :
    matchRanges length ranges (bytes ++ rest) = .complete := by
  induction fits generalizing length with
  | nil => rfl
  | cons first later ih =>
      rw [List.cons_append, matchRanges, if_pos first]
      exact ih

/-- A lead byte and bytes in the ranges that it allows make a character. -/
theorem head_eq {lead : UInt8} {bytes rest : List UInt8} {ranges : List Range} {c : Char}
    (allows : followers? lead = some ranges)
    (fits : List.Forall₂ (fun range byte => range.contains byte = true) ranges bytes)
    (point : codePoint lead bytes = c.toNat) :
    head lead (bytes ++ rest) = .character c bytes.length := by
  have lengths := fits.length_eq
  rw [head, allows]
  dsimp only
  rw [matchRanges_complete fits]
  dsimp only
  rw [lengths, List.take_left, point, Char.ofNat_toNat]

theorem followers?_two {bits : Nat} (low : 2 ≤ bits) (high : bits < 32) :
    followers? (UInt8.ofNat (bits + 192)) = some [.continuation] := by
  have all : ∀ bits < 32, 2 ≤ bits →
      followers? (UInt8.ofNat (bits + 192)) = some [.continuation] := by decide
  exact all bits high low

/-- A lead byte of three allows every first follower but those of overlong forms and surrogates. -/
theorem exists_followers_three {bits next : Nat} (high : bits < 16) (small : next < 64)
    (shortest : bits = 0 → 32 ≤ next) (scalar : bits = 13 → next < 32) :
    ∃ range, followers? (UInt8.ofNat (bits + 224)) = some [range, .continuation] ∧
      range.contains (UInt8.ofNat (next + 128)) = true := by
  have all : ∀ bits < 16, followers? (UInt8.ofNat (bits + 224)) = some [if bits = 0 then ⟨0xA0, 0xBF⟩
      else if bits = 13 then ⟨0x80, 0x9F⟩ else .continuation, .continuation] := by decide
  have first : ∀ next < 64, 32 ≤ next →
      Range.contains ⟨0xA0, 0xBF⟩ (UInt8.ofNat (next + 128)) = true := by decide
  have surrogate : ∀ next < 32,
      Range.contains ⟨0x80, 0x9F⟩ (UInt8.ofNat (next + 128)) = true := by decide
  refine ⟨_, all bits high, ?_⟩
  split
  · exact first next small (shortest ‹_›)
  · split
    · exact surrogate next (scalar ‹_›)
    · have continues := contains_follower next
      rwa [follower, Nat.mod_eq_of_lt small] at continues

/-- A lead byte of four allows every first follower but those of overlong forms and of values past
the last code point. -/
theorem exists_followers_four {bits next : Nat} (high : bits < 5) (small : next < 64)
    (shortest : bits = 0 → 16 ≤ next) (last : bits = 4 → next < 16) :
    ∃ range, followers? (UInt8.ofNat (bits + 240)) =
        some [range, .continuation, .continuation] ∧
      range.contains (UInt8.ofNat (next + 128)) = true := by
  have all : ∀ bits < 5, followers? (UInt8.ofNat (bits + 240)) = some [if bits = 0 then ⟨0x90, 0xBF⟩
      else if bits = 4 then ⟨0x80, 0x8F⟩ else .continuation, .continuation, .continuation] := by
    decide
  have first : ∀ next < 64, 16 ≤ next →
      Range.contains ⟨0x90, 0xBF⟩ (UInt8.ofNat (next + 128)) = true := by decide
  have final : ∀ next < 16,
      Range.contains ⟨0x80, 0x8F⟩ (UInt8.ofNat (next + 128)) = true := by decide
  refine ⟨_, all bits high, ?_⟩
  split
  · exact first next small (shortest ‹_›)
  · split
    · exact final next (last ‹_›)
    · have continues := contains_follower next
      rwa [follower, Nat.mod_eq_of_lt small] at continues

/-- The bytes of a character begin with the character. -/
theorem head_encode (c : Char) : ∃ lead bytes, String.utf8EncodeChar c = lead :: bytes ∧
    ∀ rest, head lead (bytes ++ rest) = .character c bytes.length := by
  have scalar : c.val.toNat < 0xD800 ∨ 0xDFFF < c.val.toNat ∧ c.val.toNat < 0x110000 := c.valid
  have value : c.toNat = c.val.toNat := rfl
  rw [String.utf8EncodeChar.eq_1]
  split
  · rename_i one
    refine ⟨_, [], rfl, fun rest => head_eq ?_ .nil ?_⟩
    · have all : ∀ point ≤ 127, followers? (UInt8.ofNat point) = some [] := by decide
      exact all _ one
    · simp only [codePoint, List.length_nil, List.foldl_nil, UInt8.toNat_ofNat', value]
      omega
  split
  · rename_i one two
    refine ⟨_, [follower c.val.toNat], rfl, fun rest => head_eq
      (followers?_two (by omega) (Nat.mod_lt _ (by decide))) (.cons (contains_follower _) .nil) ?_⟩
    simp only [codePoint, List.length_cons, List.length_nil, List.foldl_cons, List.foldl_nil,
      toNat_follower, UInt8.toNat_ofNat', value]
    omega
  split
  · rename_i one two three
    obtain ⟨range, allows, fits⟩ := @exists_followers_three (c.val.toNat / 4096 % 16)
      (c.val.toNat / 64 % 64) (Nat.mod_lt _ (by decide)) (Nat.mod_lt _ (by decide)) (by omega)
      (by omega)
    refine ⟨_, [follower (c.val.toNat / 64), follower c.val.toNat], rfl, fun rest => head_eq allows
      (.cons fits (.cons (contains_follower _) .nil)) ?_⟩
    simp only [codePoint, List.length_cons, List.length_nil, List.foldl_cons, List.foldl_nil,
      toNat_follower, UInt8.toNat_ofNat', value]
    omega
  · rename_i one two three
    obtain ⟨range, allows, fits⟩ := @exists_followers_four (c.val.toNat / 262144 % 8)
      (c.val.toNat / 4096 % 64) (by omega) (Nat.mod_lt _ (by decide)) (by omega) (by omega)
    refine ⟨_, [follower (c.val.toNat / 4096), follower (c.val.toNat / 64), follower c.val.toNat],
      rfl, fun rest => head_eq allows
        (.cons fits (.cons (contains_follower _) (.cons (contains_follower _) .nil))) ?_⟩
    simp only [codePoint, List.length_cons, List.length_nil, List.foldl_cons, List.foldl_nil,
      toNat_follower, UInt8.toNat_ofNat', value]
    omega

/-- A text is read back from its bytes. -/
theorem decode_encode (text : List Char) : decode (encode text) = .ok text := by
  have whole (index : Nat) (before : List Char) :
      decodeFrom index before (encode text) = .ok (before.reverse ++ text) := by
    induction text generalizing index before with
    | nil =>
        rw [show encode [] = [] from rfl, decodeFrom]
        simp
    | cons c text ih =>
        obtain ⟨lead, bytes, encoded, first⟩ := head_encode c
        have split : encode (c :: text) = lead :: (bytes ++ encode text) := by
          rw [encode, List.flatMap_cons, encoded]
          rfl
        rw [split, decodeFrom, first]
        dsimp only
        rw [List.drop_left, ih]
        simp
  exact whole 0 []

end RunSigning.Text.Utf8
