import RunSigning.Proofs.Grammar.Allowed

/-
This file scans a part of a document, whatever follows it: up to the content of the root element,
and from the name of a start tag up to the next bracket.
-/

namespace RunSigning.Markup
open RunSigning.Text

/-- Behind the start tag of the root element the scanner comes to its content, whatever that is. -/
theorem DocumentSource.scan_into (source : DocumentSource) {tag : TagSource}
    (named : tag.name = source.root.tag.name) (rest : List Char) :
    Scan.document (source.opening ++ (source.prolog ++ (tag.render ++ closing false ++ rest))) =
      (Scan.run .document (.content 0)
        ⟨source.start + byteLength (tag.render ++ closing false), rest⟩).prepend
        (source.prologTokens ++ tag.tokens source.start false) := by
  obtain ⟨c, tail, render, -⟩ := tag.exists_tail false
  have before := source.reads_before (c :: tail ++ rest)
  have split : '<' :: source.root.tag.name.run ++ (c :: tail ++ rest) =
      tag.render ++ closing false ++ rest := by
    rw [render, named]
    simp
  rw [split] at before
  obtain ⟨opens, passes⟩ := before
  have starts (rest : List Char) (ends : ∀ c ∈ rest.head?, isNameCharacter c = false) :
      source.mode.step.Takes source.start ('<' :: tag.name.run) rest
        ([.tagName tag.name.name source.start], .tag 0) := by
    rcases source.lands with equal | equal
    · rw [equal]
      exact Reader.takes_prologStep_startTag _ _ ends
    · rw [equal]
      exact Reader.takes_prologStep_startTag _ _ ends
  rw [Reader.Takes] at opens
  rw [Scan.document, opens]
  dsimp only
  rw [Nat.zero_add, passes.passes.run]
  rw [start] at starts ⊢
  rw [tag.run false 0 _ rest (Extent.stopsIn_document _) starts, Scan.prepend_prepend]
  rfl

/-- What is behind given tokens of a scan is scanned as well. -/
theorem Scan.exists_of_prepend {scan : Scan} {first tokens : List Token}
    (success : scan.prepend first = ⟨tokens, none⟩) :
    ∃ later, tokens = first ++ later ∧ scan = ⟨later, none⟩ := by
  obtain ⟨later, failure?⟩ := scan
  rw [Scan.prepend, Scan.mk.injEq] at success
  obtain ⟨rfl, rfl⟩ := success
  exact ⟨later, rfl, rfl⟩

/-- No bracket opens inside a start tag. -/
theorem TagSource.exists_unbracketed (source : TagSource) (selfClosing : Bool) :
    ∃ tail, source.render ++ closing selfClosing = '<' :: tail ∧ '<' ∉ tail := by
  refine ⟨source.name.run ++ (source.attributes.flatMap AttributeSource.render ++
    (source.gap ++ closing selfClosing)), by simp [render], ?_⟩
  have blank {text : List Char} (spaces : ∀ c ∈ text, isSpace c = true) : '<' ∉ text := by
    intro member
    have := spaces '<' member
    cases this
  have named (written : WrittenName) : '<' ∉ written.run := by
    intro member
    have := written.nameCharacters '<' member
    cases this
  have written (attr : AttributeSource) : '<' ∉ attr.render := by
    have quote : '<' ≠ attr.quote := by
      rcases attr.quote_fits with equal | equal <;> rw [equal] <;> decide
    simp only [AttributeSource.render, AttributeSource.opening, AttributeSource.equals,
      List.mem_append, List.mem_cons, List.not_mem_nil, or_false, not_or]
    refine ⟨⟨⟨⟨⟨blank attr.lead_blank, named attr.name⟩, blank attr.before_blank, by decide,
      blank attr.after_blank⟩, quote⟩, ?_⟩, quote⟩
    intro member
    exact (attr.value_fits '<' member).2.2 rfl
  simp only [List.mem_append, List.mem_flatMap, not_or, not_exists, not_and]
  refine ⟨named _, fun attr _ => written attr, blank source.gap_blank, ?_⟩
  cases selfClosing <;> decide

/-- A part in which no bracket opens ends before the first bracket. -/
theorem exists_append_of_unbracketed {text rest part left : List Char}
    (split : text ++ rest = part ++ left) (unbracketed : '<' ∉ part)
    (bracket : ∀ c ∈ rest.head?, c = '<') :
    ∃ more, text = part ++ more ∧ left = more ++ rest := by
  rcases List.append_eq_append_iff.mp split with ⟨more, part_eq, rest_eq⟩ | found
  · cases more with
    | nil => exact ⟨[], by simpa using part_eq.symm, by simpa using rest_eq.symm⟩
    | cons d more =>
        obtain rfl := bracket d (by simp [rest_eq])
        exact absurd (by rw [part_eq]; simp) unbracketed
  · exact found

/-- Text up to a bracket is content. -/
theorem Scan.exists_gap {level offset : Nat} {text rest : List Char} {tokens : List Token}
    (unbracketed : '<' ∉ text) (bracket : ∀ c ∈ rest.head?, c = '<')
    (success : Scan.run .document (.content level) ⟨offset, text ++ rest⟩ = ⟨tokens, none⟩) :
    ∃ (gap : Content) (later : List Token), gap.Separated ∧ gap.render = text ∧
      tokens = gap.tokens offset ++ later ∧
      Scan.run .document (.content level) ⟨offset + byteLength text, rest⟩ = ⟨later, none⟩ := by
  by_cases filled : text = []
  · subst filled
    exact ⟨.nil, tokens, trivial, rfl, rfl, success⟩
  obtain ⟨c, body, rfl⟩ := List.exists_cons_of_ne_nil filled
  have other : c ≠ '<' := fun equal => unbracketed (by simp [equal])
  obtain ⟨taken, left, first, next, later, equal, -, takes, rfl, goesOn⟩ :=
    Scan.takes_of_run (by simp) success
  have apart (tail : List Char) : taken ≠ '<' :: tail := by
    rintro rfl
    exact other (List.cons.inj equal).1
  cases Reader.takes_contentStep_iff.mp takes with
  | aside source =>
      obtain ⟨_, _, render, -⟩ := source.exists_render
      exact absurd render (apart _)
  | marked source =>
      obtain ⟨_, render⟩ := source.exists_render
      exact absurd render (apart _)
  | startTag written ends => exact absurd rfl (apart _)
  | endTag source => exact absurd rfl (apart _)
  | text run fits ends =>
      obtain ⟨more, text_eq, rfl⟩ := exists_append_of_unbracketed equal fits.unbracketed bracket
      cases more with
      | nil =>
          obtain rfl : c :: body = taken := text_eq.trans (List.append_nil taken)
          exact ⟨.text _ fits .nil, later, ⟨rfl, trivial⟩, by simp [Content.render],
            by simp [Content.tokens], goesOn⟩
      | cons d more =>
          obtain rfl := ends d rfl
          exact absurd (by rw [text_eq]; simp) unbracketed

/-- Up to the next bracket a start tag is read, and text. -/
theorem exists_startTag_gap {level offset : Nat} {written : WrittenName} {body rest : List Char}
    {tokens : List Token} (unbracketed : '<' ∉ body) (bracket : ∀ c ∈ rest.head?, c = '<')
    (ends : ∀ c ∈ (body ++ rest).head?, isNameCharacter c = false)
    (success : Scan.run .document (.content (level + 1))
      ⟨offset, '<' :: written.run ++ (body ++ rest)⟩ = ⟨tokens, none⟩) :
    OpenTail offset tokens ∨
      ∃ (tag : TagSource) (selfClosing : Bool) (gap : Content) (inside : Nat) (later : List Token),
        tag.name.name = written.name ∧ gap.Separated ∧
        '<' :: written.run ++ body = tag.render ++ closing selfClosing ++ gap.render ∧
        tokens = tag.tokens offset selfClosing ++
          (gap.tokens (offset + byteLength (tag.render ++ closing selfClosing)) ++ later) ∧
        Scan.run .document (.content inside)
          ⟨offset + byteLength (tag.render ++ closing selfClosing) + byteLength gap.render, rest⟩ =
            ⟨later, none⟩ := by
  have starts : (Mode.content (level + 1)).step.Takes offset ('<' :: written.run) (body ++ rest)
      _ := Reader.takes_contentStep_iff.mpr (.startTag written ends)
  rw [Scan.run_of_takes (Extent.stopsIn_document _) starts] at success
  obtain ⟨tail, rfl, inTag⟩ := Scan.exists_of_prepend success
  rcases exists_startTag inTag with broken |
    ⟨tag, selfClosing, left, later, equal, tokens_eq, goesOn⟩
  · exact .inl broken
  refine .inr ?_
  obtain ⟨inner, tag_eq, plain⟩ := tag.exists_unbracketed selfClosing
  have bodyless : '<' ∉ written.run ++ body := by
    intro member
    rcases List.mem_append.mp member with name | later
    · cases written.nameCharacters '<' name
    · exact unbracketed later
  have split : (written.run ++ body) ++ rest = inner ++ left := by
    rw [tag_eq] at equal
    simpa using equal
  obtain ⟨text, whole, left_eq⟩ := exists_append_of_unbracketed split plain bracket
  have textless : '<' ∉ text := by
    intro member
    exact bodyless (by rw [whole]; exact List.mem_append_right _ member)
  obtain ⟨inside, mode_eq⟩ : ∃ inside, Mode.afterTag (level + 2) selfClosing = .content inside := by
    cases selfClosing
    · exact ⟨_, rfl⟩
    · exact ⟨_, rfl⟩
  rw [mode_eq, left_eq] at goesOn
  obtain ⟨gap, last, separated, rfl, rfl, behind⟩ := Scan.exists_gap textless bracket goesOn
  have named : tag.name.name = written.name := by
    have head := congrArg List.head? tokens_eq
    rw [TagSource.tokens] at head
    simpa [eq_comm] using head
  refine ⟨tag, selfClosing, gap, inside, last, named, separated, ?_, tokens_eq, behind⟩
  rw [tag_eq, List.cons_append, whole, List.cons_append]

/-- Content is text up to its first bracket, and content that begins with one. -/
theorem Content.exists_gap (content : Content) (separated : content.Separated) :
    ∃ (text : List Char) (rest : Content), content.render = text ++ rest.render ∧ '<' ∉ text ∧
      rest.beginsWithText = false ∧ rest.Separated := by
  cases marked : content.beginsWithText with
  | false => exact ⟨[], content, rfl, List.not_mem_nil, marked, separated⟩
  | true =>
      cases content with
      | text run fits rest => exact ⟨run, rest, rfl, fits.unbracketed, separated⟩
      | nil => cases marked
      | marked source rest => cases marked
      | aside source rest => cases marked
      | empty tag rest => cases marked
      | filled tag inner ending rest => cases marked

end RunSigning.Markup
