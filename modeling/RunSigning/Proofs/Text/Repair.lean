import RunSigning.Proofs.Text.Sequence

/-
This file says what is read from any bytes. Bytes decode to a text only if they are its own bytes.
Where they are not well-formed, every character in them is kept and each maximal ill-formed part
becomes one replacement character.
-/

namespace RunSigning.Text.Utf8

/-- The bytes are those of some text. -/
def IsWellFormed (bytes : List UInt8) : Prop := ∃ text, encode text = bytes

@[simp] theorem encode_nil : encode [] = [] := rfl

@[simp] theorem encode_cons (c : Char) (text : List Char) :
    encode (c :: text) = String.utf8EncodeChar c ++ encode text := List.flatMap_cons

@[simp] theorem encode_append (text more : List Char) :
    encode (text ++ more) = encode text ++ encode more := List.flatMap_append

/-- A maximal ill-formed part of bytes at whose beginning no character stands. It is one byte or
begins some character, and nothing longer does. -/
structure IsIllFormedPart (part rest : List UInt8) : Prop where
  illFormed : ∀ c, ¬String.utf8EncodeChar c <+: part ++ rest
  filled : part ≠ []
  begins : part.length = 1 ∨ IsBeginning part
  maximal : ∀ longer, longer <+: part ++ rest → part.length < longer.length → ¬IsBeginning longer

/-- What stands at the beginning of bytes: a character, a maximal ill-formed part that no further
bytes complete, or the beginning of a character that is cut off. -/
inductive Opens (lead : UInt8) : List UInt8 → Head → Prop where
  | character {c : Char} {bytes : List UInt8} (after : List UInt8)
      (encoded : String.utf8EncodeChar c = lead :: bytes) :
      Opens lead (bytes ++ after) (.character c bytes.length)
  | illFormed {part after : List UInt8} (isPart : IsIllFormedPart (lead :: part) after)
      (dead : ¬IsBeginning (lead :: (part ++ after))) :
      Opens lead (part ++ after) (.illFormed (1 + part.length))
  | incomplete {bytes : List UInt8} (begins : IsBeginning (lead :: bytes))
      (cut : ∀ c, ¬String.utf8EncodeChar c <+: lead :: bytes) : Opens lead bytes .incomplete

theorem isBeginning_encode (c : Char) : IsBeginning (String.utf8EncodeChar c) :=
  ⟨c, List.prefix_refl _⟩

/-- A byte that leads no character is an ill-formed part by itself. -/
theorem opens_of_unknown {lead : UInt8} (bytes : List UInt8) (unknown : followers? lead = none) :
    Opens lead bytes (.illFormed 1) := by
  have never {longer : List UInt8} (filled : longer ≠ []) (within : longer <+: lead :: bytes) :
      ¬IsBeginning longer := by
    intro begins
    obtain ⟨tail, rfl, -⟩ := (List.prefix_cons_iff.1 within).resolve_left filled
    obtain ⟨first, later, found, -⟩ := begins.exists_fit
    rw [unknown] at found
    cases found
  exact @Opens.illFormed lead [] bytes
    ⟨fun c within => never (String.utf8EncodeChar_ne_nil) within (isBeginning_encode c),
      List.cons_ne_nil _ _, .inl rfl,
      fun longer within size => never (List.ne_nil_of_length_pos (by omega)) within⟩
    (never (List.cons_ne_nil _ _) (List.prefix_refl _))

/-- A character that stands at the beginning fills all ranges. -/
theorem exists_fit_of_encode {c : Char} {lead : UInt8} {ranges : List Range} {bytes : List UInt8}
    (found : followers? lead = some ranges) (within : String.utf8EncodeChar c <+: lead :: bytes) :
    ∃ tail, String.utf8EncodeChar c = lead :: tail ∧ tail <+: bytes ∧ Fit ranges tail := by
  obtain ⟨leadOf, tail, own, encoded, ownFound, fits⟩ := exists_followers c
  rw [encoded, List.cons_prefix_cons] at within
  obtain ⟨rfl, inside⟩ := within
  obtain rfl : own = ranges := Option.some.inj (ownFound.symm.trans found)
  exact ⟨tail, encoded, inside, fits⟩

/-- The head of bytes is what stands at their beginning. -/
theorem head_opens (lead : UInt8) (bytes : List UInt8) : Opens lead bytes (head lead bytes) := by
  cases found : followers? lead with
  | none =>
      rw [head, found]
      exact opens_of_unknown bytes found
  | some ranges =>
      have measured := matchRanges_measured 1 ranges bytes
      generalize matched : matchRanges 1 ranges bytes = result at measured
      cases measured with
      | @complete ranges taken after fits =>
          obtain ⟨c, encoded⟩ := exists_encode found fits
          obtain ⟨leadOf, bytesOf, same, first⟩ := head_encode c
          obtain ⟨rfl, rfl⟩ := List.cons.inj (same.symm.trans encoded)
          rw [first]
          exact .character after encoded
      | @broken first range later taken byte after fits outside =>
          -- Whatever goes on past the part has the byte outside its range.
          have stops {tail : List UInt8} (size : taken.length < tail.length)
              (within : tail <+: taken ++ byte :: after) : ¬IsBeginning (lead :: tail) := by
            intro begins
            obtain ⟨begun, rest, same, goesOn⟩ := begins.exists_fit
            rw [found, Option.some.injEq] at same
            have contains := fits.contains_next goesOn ⟨rest, same.symm⟩ within size
            rw [outside] at contains
            cases contains
          rw [head, found]
          simp only [matched]
          refine @Opens.illFormed lead taken (byte :: after) ⟨?_, List.cons_ne_nil _ _,
            .inr (isBeginning_of_fit found fits), ?_⟩ (stops (by simp) (List.prefix_refl _))
          · intro c within
            obtain ⟨tail, encoded, inside, whole⟩ := exists_fit_of_encode found within
            have size := whole.length_eq
            rw [List.length_append, fits.length_eq, List.length_cons] at size
            exact stops (by omega) inside (encoded ▸ isBeginning_encode c)
          · intro longer within size
            obtain ⟨tail, rfl, inside⟩ := (List.prefix_cons_iff.1 within).resolve_left
              (List.ne_nil_of_length_pos (by omega))
            exact stops (Nat.lt_of_succ_lt_succ size) inside
      | @cut first range later bytes fits =>
          rw [head, found]
          simp only [matched]
          refine .incomplete (isBeginning_of_fit found fits) fun c within => ?_
          obtain ⟨tail, -, inside, whole⟩ := exists_fit_of_encode found within
          have size := whole.length_eq
          have shorter := inside.length_le
          rw [List.length_append, fits.length_eq, List.length_cons] at size
          omega

/-- What decoding adds to a text it has read so far, the last character first, are the characters
whose bytes it reads. -/
theorem decodeFrom_eq_ok {index : Nat} {before text : List Char} {bytes : List UInt8}
    (decodes : decodeFrom index before bytes = .ok text) :
    ∃ read, encode read = bytes ∧ text = before.reverse ++ read := by
  fun_induction decodeFrom index before bytes with
  | case1 index before =>
      cases decodes
      exact ⟨[], rfl, (List.append_nil _).symm⟩
  | case2 index before lead rest c size first ih =>
      have opens := head_opens lead rest
      rw [first] at opens
      obtain ⟨after, encoded⟩ | _ | _ := opens
      rename_i bytes
      rw [List.drop_left] at ih decodes
      obtain ⟨read, reads, rfl⟩ := ih decodes
      refine ⟨c :: read, ?_, ?_⟩
      · rw [encode_cons, encoded, reads, List.cons_append]
      · rw [List.reverse_cons, List.append_assoc, List.singleton_append]
  | case3 => cases decodes
  | case4 => cases decodes

/-- Bytes decode to a text exactly if they are its bytes. -/
theorem decode_eq_ok_iff {bytes : List UInt8} {text : List Char} :
    decode bytes = .ok text ↔ encode text = bytes := by
  constructor
  · intro decodes
    obtain ⟨read, reads, rfl⟩ := decodeFrom_eq_ok decodes
    exact reads
  · rintro rfl
    exact decode_encode text

theorem encode_injective {text other : List Char} (same : encode text = encode other) :
    text = other :=
  Except.ok.inj ((decode_encode text).symm.trans (same ▸ decode_encode other))

theorem decodeLossyFrom_append (before old : List Char) (bytes : List UInt8) :
    decodeLossyFrom (before ++ old) bytes = old.reverse ++ decodeLossyFrom before bytes := by
  fun_induction decodeLossyFrom before bytes with
  | case1 before => rw [decodeLossyFrom, List.reverse_append]
  | case2 before lead rest c size first ih =>
      rw [decodeLossyFrom, first]
      exact ih
  | case3 before lead rest length first ih =>
      rw [decodeLossyFrom, first]
      exact ih
  | case4 before lead rest first =>
      rw [decodeLossyFrom, first]
      dsimp only
      rw [← List.cons_append, List.reverse_append]

@[simp] theorem decodeLossy_nil : decodeLossy [] = [] := by
  rw [decodeLossy, decodeLossyFrom, List.reverse_nil]

/-- A character is kept. -/
theorem decodeLossy_character (c : Char) (after : List UInt8) :
    decodeLossy (String.utf8EncodeChar c ++ after) = c :: decodeLossy after := by
  obtain ⟨lead, bytes, encoded, first⟩ := head_encode c
  rw [encoded, List.cons_append, decodeLossy, decodeLossyFrom, first]
  dsimp only
  rw [List.drop_left]
  exact decodeLossyFrom_append [] [c] after

/-- A text is kept. -/
theorem decodeLossy_encode_append (text : List Char) (after : List UInt8) :
    decodeLossy (encode text ++ after) = text ++ decodeLossy after := by
  induction text with
  | nil => rfl
  | cons c text ih =>
      rw [encode_cons, List.append_assoc, decodeLossy_character, ih, List.cons_append]

/-- No bytes begin with two maximal ill-formed parts. -/
theorem IsIllFormedPart.unique {part rest other after : List UInt8}
    (isPart : IsIllFormedPart part rest) (isOther : IsIllFormedPart other after)
    (same : part ++ rest = other ++ after) : part = other := by
  have notLonger {part rest other after : List UInt8} (isPart : IsIllFormedPart part rest)
      (isOther : IsIllFormedPart other after) (same : part ++ rest = other ++ after) :
      other.length ≤ part.length := by
    by_contra longer
    have filled := List.length_pos_iff.2 isPart.filled
    have begins := isOther.begins.resolve_left (by omega)
    exact isPart.maximal other (same ▸ List.prefix_append other after) (by omega) begins
  exact (List.append_inj same (Nat.le_antisymm (notLonger isOther isPart same.symm)
    (notLonger isPart isOther same))).1

/-- A maximal ill-formed part becomes one replacement character. -/
theorem decodeLossy_illFormedPart {part rest : List UInt8} (isPart : IsIllFormedPart part rest) :
    decodeLossy (part ++ rest) = '\ufffd' :: decodeLossy rest := by
  obtain ⟨lead, tail, rfl⟩ := List.exists_cons_of_ne_nil isPart.filled
  rw [List.cons_append, decodeLossy, decodeLossyFrom]
  have opens := head_opens lead (tail ++ rest)
  generalize split : tail ++ rest = bytes at opens
  generalize head lead bytes = first at opens
  cases opens with
  | @character c own after encoded =>
      refine absurd ?_ (isPart.illFormed c)
      rw [List.cons_append, split, ← List.cons_append, ← encoded]
      exact List.prefix_append _ _
  | @illFormed other after isOther dead =>
      obtain ⟨rfl⟩ : tail = other := List.tail_eq_of_cons_eq
        (isPart.unique isOther (congrArg (List.cons lead) split))
      obtain rfl := List.append_cancel_left split
      dsimp only
      rw [Nat.add_sub_cancel_left, List.drop_left]
      exact decodeLossyFrom_append [] ['\ufffd'] rest
  | incomplete begins cut =>
      subst split
      obtain rfl : rest = [] := by
        by_contra filled
        have longer := List.length_pos_iff.2 filled
        exact isPart.maximal _ (List.prefix_refl _) (by rw [List.length_append]; omega) begins
      rw [decodeLossy_nil]
      rfl

/-- The beginning of a character that is cut off is an ill-formed part before any byte that does
not continue it. -/
theorem isIllFormedPart_of_cut {lead : UInt8} {bytes rest : List UInt8}
    (begins : IsBeginning (lead :: bytes)) (cut : ∀ c, ¬String.utf8EncodeChar c <+: lead :: bytes)
    (stops : ∀ byte ∈ rest.head?, Range.continuation.contains byte = false) :
    IsIllFormedPart (lead :: bytes) rest := by
  have ends {longer : List UInt8} (within : longer <+: lead :: bytes ++ rest)
      (size : (lead :: bytes).length < longer.length) : ¬IsBeginning longer := by
    intro longerBegins
    obtain ⟨more, rfl⟩ := List.prefix_of_prefix_length_le (List.prefix_append _ rest) within
      (Nat.le_of_lt size)
    cases more with
    | nil => simp at size
    | cons byte more =>
        obtain ⟨after, rfl⟩ := (List.prefix_append_right_inj _).1 within
        have member : byte ∈ bytes ++ byte :: more := List.mem_append_right bytes List.mem_cons_self
        have continues := longerBegins.contains_follower member
        rw [stops byte rfl] at continues
        cases continues
  refine ⟨fun c within => ?_, List.cons_ne_nil _ _, .inr begins, fun longer => ends⟩
  rcases Nat.lt_or_ge (lead :: bytes).length (String.utf8EncodeChar c).length with longer | shorter
  · exact ends within longer (isBeginning_encode c)
  · exact cut c (List.prefix_of_prefix_length_le within (List.prefix_append _ rest) shorter)

/-- What stands at the beginning of any bytes is a character or a maximal ill-formed part. -/
theorem exists_first {bytes : List UInt8} (filled : bytes ≠ []) :
    (∃ c after, bytes = String.utf8EncodeChar c ++ after) ∨
      ∃ part rest, bytes = part ++ rest ∧ IsIllFormedPart part rest := by
  obtain ⟨lead, tail, rfl⟩ := List.exists_cons_of_ne_nil filled
  have opens := head_opens lead tail
  generalize head lead tail = first at opens
  cases opens with
  | @character c own after encoded => exact .inl ⟨c, after, by rw [encoded, List.cons_append]⟩
  | @illFormed part after isPart dead => exact .inr ⟨lead :: part, after, rfl, isPart⟩
  | incomplete begins cut =>
      exact .inr ⟨lead :: tail, [], (List.append_nil _).symm,
        isIllFormedPart_of_cut begins cut fun _ inside => by cases inside⟩

/-- The text keeps every character of the bytes and has one replacement character for each of
their maximal ill-formed parts. -/
inductive Repaired : List UInt8 → List Char → Prop where
  | done : Repaired [] []
  | kept (c : Char) {rest : List UInt8} {text : List Char} (goesOn : Repaired rest text) :
      Repaired (String.utf8EncodeChar c ++ rest) (c :: text)
  | replaced {part rest : List UInt8} {text : List Char} (isPart : IsIllFormedPart part rest)
      (goesOn : Repaired rest text) : Repaired (part ++ rest) ('\ufffd' :: text)

/-- Bytes are repaired in one way only. -/
theorem repaired_iff {bytes : List UInt8} {text : List Char} :
    Repaired bytes text ↔ text = decodeLossy bytes := by
  constructor
  · intro repaired
    induction repaired with
    | done => rw [decodeLossy_nil]
    | kept c goesOn ih => rw [decodeLossy_character, ih]
    | replaced isPart goesOn ih => rw [decodeLossy_illFormedPart isPart, ih]
  · rintro rfl
    induction size : bytes.length using Nat.strongRecOn generalizing bytes with
    | ind size ih =>
      by_cases empty : bytes = []
      · rw [empty, decodeLossy_nil]
        exact .done
      · rcases exists_first empty with ⟨c, after, rfl⟩ | ⟨part, rest, rfl, isPart⟩
        · rw [decodeLossy_character]
          have filled := List.length_pos_iff.2 (@String.utf8EncodeChar_ne_nil c)
          exact .kept c (ih after.length (by rw [← size, List.length_append]; omega) rfl)
        · rw [decodeLossy_illFormedPart isPart]
          have filled := List.length_pos_iff.2 isPart.filled
          exact .replaced isPart (ih rest.length (by rw [← size, List.length_append]; omega) rfl)

/-- The first byte of a character continues nothing. -/
theorem head?_encode_append {text : List Char} (filled : text ≠ []) (after : List UInt8) :
    ∀ byte ∈ (encode text ++ after).head?, Range.continuation.contains byte = false := by
  obtain ⟨c, text, rfl⟩ := List.exists_cons_of_ne_nil filled
  obtain ⟨lead, bytes, ranges, encoded, found, -⟩ := exists_followers c
  rw [encode_cons, encoded]
  rintro byte ⟨⟩
  exact contains_lead found

/-- An ill-formed part that no further bytes complete stays one whatever follows. -/
theorem IsIllFormedPart.append {part rest : List UInt8} (isPart : IsIllFormedPart part rest)
    (dead : ¬IsBeginning (part ++ rest)) (after : List UInt8) :
    IsIllFormedPart part (rest ++ after) := by
  have within {bytes : List UInt8} (isPrefix : bytes <+: part ++ (rest ++ after))
      (begins : IsBeginning bytes) : bytes <+: part ++ rest := by
    rw [← List.append_assoc] at isPrefix
    rcases List.prefix_or_prefix_of_prefix isPrefix (List.prefix_append _ after) with
      shorter | longer
    · exact shorter
    · exact absurd (begins.of_prefix longer) dead
  exact ⟨fun c isPrefix => isPart.illFormed c (within isPrefix (isBeginning_encode c)),
    isPart.filled, isPart.begins,
    fun longer isPrefix size begins => isPart.maximal longer (within isPrefix begins) size begins⟩

/-- A well-formed stretch is kept wherever it stands. -/
theorem decodeLossy_stretch (before : List UInt8) {kept : List Char} (filled : kept ≠ [])
    (after : List UInt8) : decodeLossy (before ++ encode kept ++ after) =
      decodeLossy before ++ kept ++ decodeLossy after := by
  induction size : before.length using Nat.strongRecOn generalizing before with
  | ind size ih =>
    subst size
    cases before with
    | nil => rw [List.nil_append, decodeLossy_nil, List.nil_append, decodeLossy_encode_append]
    | cons lead tail =>
      have opens := head_opens lead tail
      have shorter (own rest : List UInt8) : rest.length < (lead :: (own ++ rest)).length := by
        rw [List.length_cons, List.length_append]
        omega
      generalize head lead tail = first at opens
      cases opens with
      | @character c own rest encoded =>
          rw [← List.cons_append, ← encoded, List.append_assoc, List.append_assoc,
            decodeLossy_character, decodeLossy_character, ← List.append_assoc,
            ih rest.length (shorter _ _) rest rfl, List.cons_append, List.cons_append]
      | @illFormed part rest isPart dead =>
          have whole := isPart.append dead (encode kept ++ after)
          rw [← List.cons_append, List.append_assoc, List.append_assoc,
            decodeLossy_illFormedPart whole, decodeLossy_illFormedPart isPart, ← List.append_assoc,
            ih rest.length (shorter _ _) rest rfl, List.cons_append, List.cons_append]
      | incomplete begins cut =>
          have isPart := isIllFormedPart_of_cut begins cut (head?_encode_append filled after)
          have alone : IsIllFormedPart (lead :: tail) [] :=
            isIllFormedPart_of_cut begins cut fun _ inside => by cases inside
          have single := decodeLossy_illFormedPart alone
          rw [List.append_nil, decodeLossy_nil] at single
          rw [List.append_assoc, decodeLossy_illFormedPart isPart, decodeLossy_encode_append,
            single]
          rfl

end RunSigning.Text.Utf8
