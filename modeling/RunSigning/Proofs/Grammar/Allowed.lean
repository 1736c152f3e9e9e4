import RunSigning.Proofs.Grammar.Source

/-
This file says that from the root tag on a document holds only characters that it may hold. It
also lets another root element take the place of the one that is written.
-/

namespace RunSigning.Markup
open RunSigning.Text

theorem isAllowed_of_isNameCharacter {c : Char} (named : isNameCharacter c = true) :
    isAllowed c = true := by
  have same : c.val.toNat = c.toNat := rfl
  have letter : c.isAlpha = true → 65 ≤ c.toNat ∧ c.toNat ≤ 122 := by
    intro alpha
    rcases Bool.or_eq_true _ _ ▸ alpha with upper | lower
    · obtain ⟨least, most⟩ := of_decide_eq_true upper
      exact ⟨UInt32.le_iff_toNat_le.mp least, Nat.le_trans (UInt32.le_iff_toNat_le.mp most)
        (by decide)⟩
    · obtain ⟨least, most⟩ := Bool.and_eq_true_iff.mp lower
      exact ⟨Nat.le_trans (by decide) (UInt32.le_iff_toNat_le.mp (of_decide_eq_true least)),
        UInt32.le_iff_toNat_le.mp (of_decide_eq_true most)⟩
  have digit : c.isDigit = true → 48 ≤ c.toNat ∧ c.toNat ≤ 57 := by
    simp only [Char.isDigit, Bool.and_eq_true, decide_eq_true_eq, UInt32.le_iff_toNat_le,
      Char.reduceVal, UInt32.reduceToNat]
    omega
  have colon : c = ':' → c.toNat = 58 := by rintro rfl; rfl
  have underscore : c = '_' → c.toNat = 95 := by rintro rfl; rfl
  have hyphen : c = '-' → c.toNat = 45 := by rintro rfl; rfl
  have dot : c = '.' → c.toNat = 46 := by rintro rfl; rfl
  simp only [isNameCharacter, isNameStart, Bool.or_eq_true, beq_iff_eq, Bool.and_eq_true,
    decide_eq_true_eq] at named
  have bounds : 0x20 ≤ c.toNat ∧ c.toNat ≠ 0xFFFE ∧ c.toNat ≠ 0xFFFF := by grind
  simp only [isAllowed]
  rw [if_neg (by omega)]
  simp [bounds]

/-- All characters of a text may stand in a document. -/
def AllAllowed (text : List Char) : Prop := ∀ c ∈ text, isAllowed c = true

@[simp] theorem allAllowed_nil : AllAllowed [] := by
  intro c member
  cases member

@[simp] theorem allAllowed_cons {c : Char} {text : List Char} :
    AllAllowed (c :: text) ↔ isAllowed c = true ∧ AllAllowed text :=
  List.forall_mem_cons

@[simp] theorem allAllowed_append {first second : List Char} :
    AllAllowed (first ++ second) ↔ AllAllowed first ∧ AllAllowed second :=
  List.forall_mem_append

theorem allAllowed_of_blank {gap : List Char} (blank : ∀ c ∈ gap, isSpace c = true) :
    AllAllowed gap := fun c member => isAllowed_of_isSpace (blank c member)

theorem WrittenName.allAllowed (written : WrittenName) : AllAllowed written.run :=
  fun c member => isAllowed_of_isNameCharacter (written.nameCharacters c member)

theorem allAllowed_closing (selfClosing : Bool) : AllAllowed (closing selfClosing) := by
  cases selfClosing <;> simp [closing] <;> decide

theorem AttributeSource.allAllowed (source : AttributeSource) : AllAllowed source.render := by
  have quote : isAllowed source.quote = true := by
    rcases source.quote_fits with equal | equal <;> rw [equal] <;> decide
  have equalsSign : isAllowed '=' = true := by decide
  have value : AllAllowed source.value := fun c member => (source.value_fits c member).1
  simp [render, opening, equals, allAllowed_of_blank source.lead_blank, source.name.allAllowed,
    allAllowed_of_blank source.before_blank, allAllowed_of_blank source.after_blank, quote, value,
    equalsSign]

theorem EndSource.allAllowed (source : EndSource) : AllAllowed source.render := by
  have brackets : isAllowed '<' = true ∧ isAllowed '/' = true ∧ isAllowed '>' = true := by decide
  simp [render, brackets, source.name.allAllowed, allAllowed_of_blank source.gap_blank]

theorem AsideSource.allAllowed (source : AsideSource) : AllAllowed source.render := by
  cases source with
  | comment written text reads =>
      obtain ⟨content, rfl, allowed, -⟩ := Reader.takes_comment_iff.mp (reads 0 [])
      have opens : AllAllowed "<!--".toList := by unfold AllAllowed; decide
      have closes : AllAllowed "-->".toList := by unfold AllAllowed; decide
      exact allAllowed_append.mpr ⟨opens, allAllowed_append.mpr ⟨allowed, closes⟩⟩
  | instruction written target data reads =>
      obtain ⟨name, gap, content, rfl, -, -, named, -, blank, -, allowed, -⟩ :=
        Reader.takes_instruction_iff.mp (reads 0 [])
      have opens : AllAllowed "<?".toList := by unfold AllAllowed; decide
      have closes : AllAllowed "?>".toList := by unfold AllAllowed; decide
      have named' : AllAllowed name := fun c member =>
        isAllowed_of_isNameCharacter (named c member)
      exact allAllowed_append.mpr ⟨opens, allAllowed_append.mpr ⟨named', allAllowed_append.mpr
        ⟨allAllowed_of_blank blank, allAllowed_append.mpr ⟨allowed, closes⟩⟩⟩⟩

theorem SectionSource.allAllowed (source : SectionSource) : AllAllowed source.render := by
  obtain ⟨text, equal, allowed, -⟩ := Reader.takes_markedSection_iff.mp (source.reads 0 [])
  have opens : AllAllowed "<![CDATA[".toList := by unfold AllAllowed; decide
  have closes : AllAllowed "]]>".toList := by unfold AllAllowed; decide
  rw [equal]
  exact allAllowed_append.mpr ⟨opens, allAllowed_append.mpr ⟨allowed, closes⟩⟩

/-- From the root tag on every step takes allowed characters and stays there. -/
theorem Reader.Takes.allAllowed_inside {mode next : Mode} (inside : mode.isOutside = false)
    {offset : Nat} {taken rest : List Char} {tokens : List Token}
    (takes : mode.step.Takes offset taken rest (tokens, next)) :
    AllAllowed taken ∧ next.isOutside = false := by
  have after (level : Nat) : (Mode.afterElement level).isOutside = false := by
    cases level <;> rfl
  have bracket : isAllowed '<' = true := by decide
  cases mode with
  | prolog => cases inside
  | preamble => cases inside
  | subset start => cases inside
  | tag level =>
      cases takes_tagStep_iff.mp takes with
      | close gap blank selfClosing =>
          refine ⟨allAllowed_append.mpr ⟨allAllowed_of_blank blank, allAllowed_closing _⟩, ?_⟩
          cases selfClosing
          · rfl
          · exact after level
      | another source => exact ⟨source.allAllowed, rfl⟩
  | content level =>
      cases takes_contentStep_iff.mp takes with
      | aside source => exact ⟨source.allAllowed, rfl⟩
      | marked source => exact ⟨source.allAllowed, rfl⟩
      | text run fits ends => exact ⟨fits.allowed, rfl⟩
      | startTag written ends =>
          exact ⟨allAllowed_cons.mpr ⟨bracket, written.allAllowed⟩, rfl⟩
      | endTag source => exact ⟨source.allAllowed, after level⟩
  | epilog =>
      cases takes_epilogStep_iff.mp takes with
      | blanks gap filled blank ends => exact ⟨allAllowed_of_blank blank, rfl⟩
      | aside source => exact ⟨source.allAllowed, rfl⟩

/-- From the root tag on a document holds only allowed characters. -/
theorem Scan.allAllowed {mode : Mode} (inside : mode.isOutside = false) {offset : Nat}
    {text : List Char} {tokens : List Token}
    (success : Scan.run .document mode ⟨offset, text⟩ = ⟨tokens, none⟩) : AllAllowed text := by
  induction length : text.length using Nat.strongRecOn generalizing mode offset text tokens with
  | ind length ih =>
      subst length
      by_cases filled : text = []
      · rw [filled]
        exact allAllowed_nil
      obtain ⟨taken, rest, first, next, later, rfl, shorter, takes, rfl, goesOn⟩ :=
        Scan.takes_of_run filled success
      obtain ⟨allowed, inside'⟩ := takes.allAllowed_inside inside
      exact allAllowed_append.mpr ⟨allowed, ih _ shorter inside' goesOn rfl⟩

/-- A character that may follow the name in a start tag. -/
def EndsName (c : Char) : Prop := isSpace c = true ∨ c = '/' ∨ c = '>'

theorem EndsName.not_isNameCharacter {c : Char} (ends : EndsName c) :
    isNameCharacter c = false := by
  rcases ends with space | rfl | rfl
  · exact not_isNameCharacter_of_isSpace space
  · decide
  · decide

/-- The name in a start tag is followed by a blank or by the closing bracket. -/
theorem TagSource.exists_tail (source : TagSource) (selfClosing : Bool) :
    ∃ c tail, source.render ++ closing selfClosing = '<' :: source.name.run ++ c :: tail ∧
      EndsName c := by
  have split : source.render ++ closing selfClosing = '<' :: source.name.run ++
      (source.attributes.flatMap AttributeSource.render ++ (source.gap ++ closing selfClosing)) := by
    simp [render]
  rw [split]
  cases source.attributes with
  | nil =>
      have blank := source.gap_blank
      revert blank
      cases source.gap with
      | nil =>
          intro _
          cases selfClosing
          · exact ⟨'>', [], rfl, .inr (.inr rfl)⟩
          · exact ⟨'/', ['>'], rfl, .inr (.inl rfl)⟩
      | cons d gap =>
          intro blank
          exact ⟨d, gap ++ closing selfClosing, rfl, .inl (blank d (by simp))⟩
  | cons first later =>
      obtain ⟨d, lead, led⟩ := List.exists_cons_of_ne_nil first.lead_filled
      refine ⟨d, lead ++ first.name.run ++ first.equals ++ [first.quote] ++ first.value ++
        [first.quote] ++ later.flatMap AttributeSource.render ++ source.gap ++
        closing selfClosing, ?_, .inl (first.lead_blank d (by simp [led]))⟩
      simp [AttributeSource.render, AttributeSource.opening, led]

/-- An element begins with its name, which ends where something else begins. -/
theorem ElementSource.exists_tail (source : ElementSource) :
    ∃ c tail, source.render = '<' :: source.tag.name.run ++ c :: tail ∧ EndsName c := by
  cases source with
  | empty tag => exact tag.exists_tail true
  | filled tag inner ending =>
      obtain ⟨c, tail, equal, ends⟩ := tag.exists_tail false
      refine ⟨c, tail ++ (inner.render ++ ending.render), ?_, ends⟩
      rw [render, filledRender, List.append_assoc, equal]
      simp [ElementSource.tag]

/-- The same text is passed before another root tag with the same first letter. -/
theorem PassesOutside.moved {mode final : Mode} {offset : Nat} {taken : List Char}
    {tokens : List Token} {n : Char} {body : List Char} (named : isNameStart n = true)
    (passes : PassesOutside ('<' :: n :: body) mode offset taken tokens final)
    (body' : List Char) : PassesOutside ('<' :: n :: body') mode offset taken tokens final :=
  ⟨passes.passes.moved named body', passes.outside, passes.before, passes.plain⟩

namespace DocumentSource

variable {source : DocumentSource}

/-- The text before the root element is read in the same way before any tag of the same name. -/
theorem reads_before (source : DocumentSource) (tail : List Char) :
    Reader.opening.Takes 0 source.opening
        (source.prolog ++ ('<' :: source.root.tag.name.run ++ tail)) () ∧
      PassesOutside ('<' :: source.root.tag.name.run ++ tail) .prolog
        (byteLength source.opening) source.prolog source.prologTokens source.mode := by
  obtain ⟨c, body, render, -⟩ := source.root.exists_tail
  obtain ⟨n, run, name, start⟩ := source.root.tag.name.exists_cons
  have opens := source.opens
  have passes := source.passes
  rw [render, name] at opens passes
  rw [name]
  exact ⟨Reader.Local.opening _ _ _ _ _ _ _ start opens, passes.moved start _⟩

/-- Before any tag of the name of the root element the scanner comes to this tag. -/
theorem scan_before (source : DocumentSource) {tail : List Char}
    (ends : ∀ c ∈ tail.head?, isNameCharacter c = false) :
    Scan.document (source.opening ++ (source.prolog ++
        ('<' :: source.root.tag.name.run ++ tail))) =
      (Scan.run .document (.tag 0)
        ⟨source.start + byteLength ('<' :: source.root.tag.name.run), tail⟩).prepend
        (source.prologTokens ++ [.tagName source.root.tag.name.name source.start]) := by
  obtain ⟨opens, passes⟩ := source.reads_before tail
  rw [Reader.Takes] at opens
  have starts : source.mode.step.Takes source.start ('<' :: source.root.tag.name.run) tail
      ([.tagName source.root.tag.name.name source.start], .tag 0) := by
    rcases source.lands with equal | equal
    · rw [equal]
      exact Reader.takes_prologStep_startTag _ _ ends
    · rw [equal]
      exact Reader.takes_prologStep_startTag _ _ ends
  rw [Scan.document, opens]
  dsimp only
  rw [Nat.zero_add, passes.passes.run]
  rw [start] at starts ⊢
  rw [Scan.run_of_takes (Extent.stopsIn_document _) starts, Scan.prepend_prepend]

/-- Whatever stands behind the name of the root element is allowed in a document. -/
theorem allAllowed_of_scan (source : DocumentSource) {tail : List Char} {tokens : List Token}
    (ends : ∀ c ∈ tail.head?, isNameCharacter c = false)
    (success : Scan.document (source.opening ++ (source.prolog ++
      ('<' :: source.root.tag.name.run ++ tail))) = ⟨tokens, none⟩) : AllAllowed tail := by
  rw [source.scan_before ends, Scan.prepend, Scan.mk.injEq] at success
  exact @Scan.allAllowed (.tag 0) rfl _ _ _ (congrArg (Scan.mk _) success.2)

/-- The same document with another root element of the same name. -/
def withRoot (source : DocumentSource) (root : ElementSource)
    (named : root.tag.name = source.root.tag.name) (separated : root.inner.Separated) :
    DocumentSource where
  opening := source.opening
  prolog := source.prolog
  prologTokens := source.prologTokens
  mode := source.mode
  root := root
  back := source.back
  asides := source.asides
  opens := by
    obtain ⟨c, tail, render, -⟩ := root.exists_tail
    rw [render, named, List.append_assoc]
    exact (source.reads_before _).1
  passes := by
    obtain ⟨c, tail, render, -⟩ := root.exists_tail
    rw [render, named, List.append_assoc]
    exact (source.reads_before _).2
  lands := source.lands
  separated := separated
  ends := source.ends

end DocumentSource

end RunSigning.Markup
