import RunSigning.Declaration.Record
import RunSigning.Proofs.Grammar.Allowed

/-
This file evaluates what recording reads off a text: cuts and edits at known places, the name in
a tag, the quote before a value and the end tag of an element.
-/

namespace RunSigning.Text

/-- The span behind more text. -/
def Span.movedBy (span : Span) (offset : Nat) : Span := ⟨offset + span.start, offset + span.stop⟩

theorem Span.movedBy_movedBy (span : Span) (first second : Nat) :
    (span.movedBy first).movedBy second = span.movedBy (second + first) := by
  simp [movedBy, Nat.add_assoc]

theorem before_append (first second : List Char) :
    before (byteLength first) (first ++ second) = first := by
  rw [before, splitAt?_eq_some_iff.mpr ⟨rfl, rfl⟩]
  rfl

theorem after_append (first second : List Char) :
    after (byteLength first) (first ++ second) = second := by
  rw [after, splitAt?_eq_some_iff.mpr ⟨rfl, rfl⟩]
  rfl

/-- The slice of a text between two other parts. -/
theorem slice_append {span : Span} {first middle last : List Char}
    (start : span.start = byteLength first)
    (stop : span.stop = byteLength first + byteLength middle) :
    slice span (first ++ (middle ++ last)) = middle := by
  rw [slice, start, stop, after_append, Nat.add_sub_cancel_left, before_append]

theorem around?_append {span : Span} {first middle last : List Char}
    (start : span.start = byteLength first)
    (stop : span.stop = byteLength first + byteLength middle) :
    around? span (first ++ (middle ++ last)) = some (first, last) := by
  have left : splitAt? (byteLength first) (first ++ (middle ++ last)) =
      some (first, middle ++ last) := splitAt?_eq_some_iff.mpr ⟨rfl, rfl⟩
  have right : splitAt? (byteLength first + byteLength middle) (first ++ (middle ++ last)) =
      some (first ++ middle, last) :=
    splitAt?_eq_some_iff.mpr ⟨by simp, byteLength_append _ _⟩
  rw [around?, start, stop, if_pos (Nat.le_add_right _ _), left, right]

theorem mem_of_mem_after {place : Nat} {text : List Char} {c : Char}
    (member : c ∈ after place text) : c ∈ text := by
  rw [after] at member
  cases split : splitAt? place text with
  | none =>
      rw [split] at member
      cases member
  | some parts =>
      rw [split] at member
      rw [(splitAt?_eq_some_iff.mp split).1]
      exact List.mem_append_right _ member

/-- Behind the last place nothing is found. -/
theorem lastFrom_of_none {found : List Char → Bool} {text : List Char} (offset : Nat)
    (last : Option Nat) (none : ∀ rest, rest <:+ text → rest ≠ [] → found rest = false) :
    lastFrom found offset last text = last := by
  induction text generalizing offset last with
  | nil => rfl
  | cons c text ih =>
      rw [lastFrom, none _ (List.suffix_refl _) (List.cons_ne_nil _ _)]
      exact ih _ _ fun rest suffix => none rest (suffix.trans (List.suffix_cons c text))

theorem lastFrom_append {found : List Char → Bool} {first last : List Char} {c : Char}
    (offset : Nat) (earlier : Option Nat) (here : found (c :: last) = true)
    (none : ∀ rest, rest <:+ last → rest ≠ [] → found rest = false) :
    lastFrom found offset earlier (first ++ c :: last) = some (offset + byteLength first) := by
  induction first generalizing offset earlier with
  | nil =>
      rw [List.nil_append, lastFrom, here, if_pos rfl, lastFrom_of_none _ _ none]
      rfl
  | cons d first ih =>
      rw [List.cons_append, lastFrom, ih, byteLength_cons, Nat.add_assoc]

end RunSigning.Text

namespace RunSigning
open RunSigning.Text RunSigning.Markup

/-- An edit of known text. -/
theorem TextEdit.apply_append {edit : TextEdit} {first middle last : List Char}
    (start : edit.span.start = byteLength first)
    (stop : edit.span.stop = byteLength first + byteLength middle) :
    edit.apply (String.ofList (first ++ (middle ++ last))) =
      .ok (String.ofList (first ++ (edit.replacement.toList ++ last))) := by
  rw [apply, String.toList_ofList, around?_append start stop]
  simp [String.ofList_append, String.append_assoc]

/-- An insertion at a known place. -/
theorem TextEdit.apply_insert {place : Nat} {first last : List Char} (replacement : List Char)
    (start : place = byteLength first) :
    (TextEdit.insert place (String.ofList replacement)).apply (String.ofList (first ++ last)) =
      .ok (String.ofList (first ++ (replacement ++ last))) := by
  have inserted := @apply_append (.insert place (String.ofList replacement)) first [] last
    start start
  rwa [List.nil_append, show (TextEdit.insert place (String.ofList replacement)).replacement =
    String.ofList replacement from rfl, String.toList_ofList] at inserted

theorem isAsciiBlank_of_isSpace {c : Char} (space : isSpace c = true) : isAsciiBlank c = true := by
  simp only [isSpace, Bool.or_eq_true, beq_iff_eq] at space
  rcases space with ((rfl | rfl) | rfl) | rfl <;> rfl

theorem not_isAsciiBlank_of_isNameCharacter {c : Char} (named : isNameCharacter c = true) :
    isAsciiBlank c = false := by
  cases blank : isAsciiBlank c with
  | false => rfl
  | true =>
      simp only [isAsciiBlank, Bool.or_eq_true, beq_iff_eq] at blank
      rcases blank with (((rfl | rfl) | rfl) | rfl) | rfl <;> cases named

/-- The name in a tag runs up to the character that ends it. -/
theorem tagNameAt_append (written : WrittenName) {c : Char} (ends : EndsName c)
    (first rest : List Char) :
    tagNameAt (first ++ ('<' :: written.run ++ c :: rest)) (byteLength first) = written.run := by
  have place : after (byteLength first + 1) (first ++ ('<' :: written.run ++ c :: rest)) =
      written.run ++ c :: rest := by
    have whole := after_append (first ++ ['<']) (written.run ++ c :: rest)
    rw [byteLength_append, show byteLength ['<'] = 1 from rfl] at whole
    simpa using whole
  have broken := (@breakWhile_eq_iff
    (fun c => !(isAsciiBlank c || c == '/' || c == '>')) (written.run ++ c :: rest)
    written.run (c :: rest)).mpr
  rw [tagNameAt, place, broken ⟨rfl, ?_, ?_⟩]
  · intro d member
    have named := written.nameCharacters d member
    have blank := not_isAsciiBlank_of_isNameCharacter named
    have slash : d ≠ '/' := by rintro rfl; cases named
    have bracket : d ≠ '>' := by rintro rfl; cases named
    simp [blank, slash, bracket]
  · intro d member
    obtain rfl := Option.some.inj member
    rcases ends with space | rfl | rfl
    · simp [isAsciiBlank_of_isSpace space]
    · rfl
    · rfl

theorem quoteBefore_append {quote : Char} (fits : quote = '\'' ∨ quote = '"')
    (first rest : List Char) :
    quoteBefore (first ++ quote :: rest) (byteLength first + 1) = quote := by
  have whole := before_append (first ++ [quote]) rest
  rw [byteLength_append, byteLength_quote fits, List.append_assoc, List.singleton_append] at whole
  rw [quoteBefore, whole]
  rcases fits with rfl | rfl <;> simp

/-- In front of its bracket an end tag holds a name and blanks. -/
theorem EndSource.exists_render (ending : EndSource) :
    ∃ front c, ending.render = '<' :: '/' :: (front ++ [c, '>']) ∧ c ≠ '/' ∧
      '<' ∉ front ++ [c, '>'] := by
  have named : ∀ d ∈ ending.name.run ++ ending.gap, d ≠ '/' ∧ d ≠ '<' := by
    intro d member
    rcases List.mem_append.mp member with name | blank
    · have named := ending.name.nameCharacters d name
      constructor
      · rintro rfl
        cases named
      · rintro rfl
        cases named
    · have space := ending.gap_blank d blank
      constructor
      · rintro rfl
        cases space
      · rintro rfl
        cases space
  have filled : ending.name.run ++ ending.gap ≠ [] := by
    simp [ending.name.run_ne_nil]
  obtain ⟨front, c, split⟩ : ∃ front c, ending.name.run ++ ending.gap = front ++ [c] :=
    ⟨_, _, (List.dropLast_concat_getLast filled).symm⟩
  rw [split] at named
  refine ⟨front, c, ?_, (named c (by simp)).1, ?_⟩
  · rw [EndSource.render, List.append_assoc, List.append_assoc, ← List.append_assoc ending.name.run,
      split]
    simp
  · intro member
    rw [List.append_cons, List.mem_append] at member
    rcases member with held | last
    · exact (named '<' held).2 rfl
    · cases List.mem_singleton.mp last

/-- An element without content ends as one. -/
theorem endsEmpty (source : ElementSource) :
    startsWith ['>', '/'] source.render.reverse = source.isEmpty := by
  cases source with
  | empty tag => simp [ElementSource.render, closing, startsWith, strip?, ElementSource.isEmpty]
  | filled tag inner ending =>
      obtain ⟨front, c, equal, other, -⟩ := EndSource.exists_render ending
      simp [ElementSource.render, filledRender, equal, startsWith, strip?, ElementSource.isEmpty,
        Ne.symm other]

/-- The end tag of an element begins at the last place of its brackets. -/
theorem lastOccurrence_endTag (tag : TagSource) (inner : Content) (ending : EndSource) :
    lastOccurrence? "</".toList (ElementSource.filled tag inner ending).render =
      some (byteLength (tag.render ++ closing false) + byteLength inner.render) := by
  obtain ⟨front, c, equal, -, unbracketed⟩ := EndSource.exists_render ending
  have brackets : "</".toList = ['<', '/'] := by decide +kernel
  have split : (ElementSource.filled tag inner ending).render =
      (tag.render ++ closing false ++ inner.render) ++ '<' :: '/' :: (front ++ [c, '>']) := by
    rw [ElementSource.render, filledRender, equal]
  rw [lastOccurrence?, brackets, split, lastFrom_append]
  · simp [Nat.add_assoc]
  · simp [startsWith, strip?]
  · intro rest suffix filled
    cases rest with
    | nil => cases filled rfl
    | cons d rest =>
        have other : '<' ≠ d := by
          rintro rfl
          rcases List.mem_cons.mp (suffix.subset List.mem_cons_self) with slash | later
          · cases slash
          · exact unbracketed later
        simp [startsWith, strip?, other]

namespace Markup

/-- A text with a place for a value, which stands there escaped between quotes. -/
structure Slot where
  quote : Char
  opened : List Char
  closed : List Char
  fits : quote = '\'' ∨ quote = '"'
  quoted : opened.getLast? = some quote

/-- The text with a value in its place. -/
def Slot.fill (slot : Slot) (value : String) : List Char :=
  slot.opened ++ (escape slot.quote value.toList ++ slot.closed)

/-- The span of a value in its place. -/
def Slot.spot (slot : Slot) (value : String) : Span where
  start := byteLength slot.opened
  stop := byteLength slot.opened + byteLength (escape slot.quote value.toList)

/-- The slot with more text around it. -/
def Slot.within (slot : Slot) (front behind : List Char) : Slot where
  quote := slot.quote
  opened := front ++ slot.opened
  closed := slot.closed ++ behind
  fits := slot.fits
  quoted := by rw [List.getLast?_append, slot.quoted]; rfl

@[simp] theorem Slot.fill_within (slot : Slot) (front behind : List Char) (value : String) :
    (slot.within front behind).fill value = front ++ (slot.fill value ++ behind) := by
  simp [fill, within]

@[simp] theorem Slot.spot_within (slot : Slot) (front behind : List Char) (value : String) :
    (slot.within front behind).spot value = (slot.spot value).movedBy (byteLength front) := by
  simp [spot, within, Span.movedBy, Nat.add_assoc]

/-- A value in its place can be rewritten. -/
theorem Slot.apply_rewrite (slot : Slot) (first second : String) :
    (TextEdit.mk (slot.spot first)
        (escapeString (quoteBefore (slot.fill first) (slot.spot first).start) second)).apply
      (String.ofList (slot.fill first)) = .ok (String.ofList (slot.fill second)) := by
  obtain ⟨front, split⟩ := List.getLast?_eq_some_iff.mp slot.quoted
  have start : (slot.spot first).start = byteLength front + 1 := by
    rw [spot, split, byteLength_append, byteLength_quote slot.fits]
  have text : slot.fill first =
      front ++ slot.quote :: (escape slot.quote first.toList ++ slot.closed) := by
    rw [fill, split]
    simp
  have quote : quoteBefore (slot.fill first) (slot.spot first).start = slot.quote := by
    rw [start, text, quoteBefore_append slot.fits]
  rw [quote, fill, TextEdit.apply_append rfl rfl]
  simp [escapeString, fill]

end Markup

end RunSigning
