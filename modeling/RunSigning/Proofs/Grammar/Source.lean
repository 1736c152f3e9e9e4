import RunSigning.Proofs.Grammar.Prolog

/-
This file takes texts apart. What the scanner reads was written as a prolog, a root element and
an epilog, or an element in it is never closed.
-/

namespace RunSigning.Markup
open RunSigning.Text

/-- What the scanner finds behind content that is never closed: nothing, a start tag that breaks
off, or an element that is never closed. -/
inductive OpenTail : Nat → List Token → Prop where
  | ended (offset : Nat) : OpenTail offset []
  | broken (offset : Nat) (name : WrittenName) (attributes : List AttributeSource) :
      OpenTail offset (.tagName name.name offset ::
        attributeTokens (offset + byteLength ('<' :: name.run)) attributes)
  | deeper (offset : Nat) (tag : TagSource) (content : Content) {tail : List Token}
      (goesOn : OpenTail (offset + byteLength (tag.render ++ closing false) +
        byteLength content.render) tail) :
      OpenTail offset (tag.tokens offset false ++
        content.tokens (offset + byteLength (tag.render ++ closing false)) ++ tail)

/-- The attributes of a start tag are read up to its closing bracket, or up to the end of the
text. -/
theorem exists_attributes {level offset : Nat} {text : List Char} {tokens : List Token}
    (success : Scan.run .document (.tag level) ⟨offset, text⟩ = ⟨tokens, none⟩) :
    (∃ attributes, tokens = attributeTokens offset attributes) ∨
      ∃ (attributes : List AttributeSource) (gap : List Char) (selfClosing : Bool)
        (rest : List Char) (later : List Token), (∀ c ∈ gap, isSpace c = true) ∧
        text = attributes.flatMap AttributeSource.render ++ (gap ++ closing selfClosing) ++ rest ∧
        tokens = attributeTokens offset attributes ++
          .tagEnd selfClosing (offset + byteLength
            (attributes.flatMap AttributeSource.render ++ (gap ++ closing selfClosing))) ::
              later ∧
        Scan.run .document (.afterTag level selfClosing)
          ⟨offset + byteLength
            (attributes.flatMap AttributeSource.render ++ (gap ++ closing selfClosing)), rest⟩ =
            ⟨later, none⟩ := by
  induction length : text.length using Nat.strongRecOn generalizing offset text tokens with
  | ind length ih =>
      subst length
      by_cases filled : text = []
      · subst filled
        rw [Scan.run] at success
        cases success
        exact .inl ⟨[], rfl⟩
      obtain ⟨taken, rest, first, next, later, rfl, shorter, takes, rfl, goesOn⟩ :=
        Scan.takes_of_run filled success
      cases Reader.takes_tagStep_iff.mp takes with
      | close gap blank selfClosing =>
          exact .inr ⟨[], gap, selfClosing, rest, later, blank, rfl, rfl, goesOn⟩
      | another source =>
          rcases ih _ shorter goesOn rfl with ⟨attributes, rfl⟩ |
            ⟨attributes, gap, selfClosing, body, last, blank, rfl, rfl, closes⟩
          · exact .inl ⟨source :: attributes, rfl⟩
          · refine .inr ⟨source :: attributes, gap, selfClosing, body, last, blank, by simp, ?_, ?_⟩
            · simp [attributeTokens, Nat.add_assoc]
            · simpa [Nat.add_assoc] using closes

/-- A start tag is read as a whole, or it breaks off at the end of the text. -/
theorem exists_startTag {level offset : Nat} {written : WrittenName} {rest : List Char}
    {tokens : List Token}
    (success : Scan.run .document (.tag level)
      ⟨offset + byteLength ('<' :: written.run), rest⟩ = ⟨tokens, none⟩) :
    OpenTail offset (.tagName written.name offset :: tokens) ∨
      ∃ (tag : TagSource) (selfClosing : Bool) (body : List Char) (later : List Token),
        '<' :: written.run ++ rest = tag.render ++ closing selfClosing ++ body ∧
        .tagName written.name offset :: tokens = tag.tokens offset selfClosing ++ later ∧
        Scan.run .document (.afterTag level selfClosing)
          ⟨offset + byteLength (tag.render ++ closing selfClosing), body⟩ = ⟨later, none⟩ := by
  rcases exists_attributes success with ⟨attributes, rfl⟩ |
    ⟨attributes, gap, selfClosing, body, later, blank, rfl, rfl, closes⟩
  · exact .inl (.broken offset written attributes)
  · refine .inr ⟨⟨written, attributes, gap, blank⟩, selfClosing, body, later, ?_, ?_, ?_⟩
    · simp [TagSource.render]
    · simp [TagSource.tokens, TagSource.render, Nat.add_assoc]
    · simpa [TagSource.render, Nat.add_assoc] using closes

/-- What comes after content: its end tag, or nothing that closes it. -/
inductive ContentEnd (level offset : Nat) : List Char → List Token → Prop where
  | closed (ending : EndSource) (rest : List Char) (later : List Token)
      (goesOn : Scan.run .document (.afterElement level)
        ⟨offset + byteLength ending.render, rest⟩ = ⟨later, none⟩) :
      ContentEnd level offset (ending.render ++ rest)
        (.endTag ending.name.name ⟨offset, offset + byteLength ending.render⟩ :: later)
  | unclosed (rest : List Char) {tail : List Token} (tail_open : OpenTail offset tail) :
      ContentEnd level offset rest tail

/-- Content is read piece by piece. -/
theorem exists_content {level offset : Nat} {text : List Char} {tokens : List Token}
    (success : Scan.run .document (.content level) ⟨offset, text⟩ = ⟨tokens, none⟩) :
    ∃ (content : Content) (rest : List Char) (tail : List Token), content.Separated ∧
      text = content.render ++ rest ∧ tokens = content.tokens offset ++ tail ∧
      ContentEnd level (offset + byteLength content.render) rest tail := by
  induction length : text.length using Nat.strongRecOn generalizing level offset text tokens with
  | ind length ih =>
      subst length
      by_cases filled : text = []
      · subst filled
        rw [Scan.run] at success
        cases success
        exact ⟨.nil, [], [], trivial, rfl, rfl, .unclosed [] (.ended _)⟩
      obtain ⟨taken, rest, first, next, later, rfl, shorter, takes, rfl, goesOn⟩ :=
        Scan.takes_of_run filled success
      cases Reader.takes_contentStep_iff.mp takes with
      | aside source =>
          obtain ⟨content, body, tail, separated, rfl, rfl, ends⟩ := ih _ shorter goesOn rfl
          refine ⟨.aside source content, body, tail, separated, by simp [Content.render],
            by simp [Content.tokens], by simpa [Content.render, Nat.add_assoc] using ends⟩
      | marked source =>
          obtain ⟨content, body, tail, separated, rfl, rfl, ends⟩ := ih _ shorter goesOn rfl
          refine ⟨.marked source content, body, tail, separated, by simp [Content.render],
            by simp [Content.tokens], by simpa [Content.render, Nat.add_assoc] using ends⟩
      | text run fits ends' =>
          obtain ⟨content, body, tail, separated, rfl, rfl, ends⟩ := ih _ shorter goesOn rfl
          have apart : content.beginsWithText = false := by
            cases content with
            | text run' fits' more =>
                obtain ⟨c, more', equal⟩ := List.exists_cons_of_ne_nil fits'.filled
                have bracket := ends' c (by simp [Content.render, equal])
                exact absurd (by simp [equal, bracket]) fits'.unbracketed
            | nil => rfl
            | marked source more => rfl
            | aside source more => rfl
            | empty tag more => rfl
            | filled tag inner ending more => rfl
          refine ⟨.text taken fits content, body, tail, ⟨apart, separated⟩,
            by simp [Content.render], by simp [Content.tokens],
            by simpa [Content.render, Nat.add_assoc] using ends⟩
      | startTag written ends' =>
          rcases exists_startTag goesOn with broken |
            ⟨tag, selfClosing, body, last, equal, tokens_eq, closes⟩
          · exact ⟨.nil, _, _, trivial, rfl, rfl, .unclosed _ broken⟩
          rw [List.singleton_append, tokens_eq, equal]
          rw [equal] at ih
          have shorter' : body.length <
              (tag.render ++ closing selfClosing ++ body).length := by
            have := List.length_pos_iff.mpr (closing_ne_nil selfClosing)
            simp only [List.length_append]
            omega
          cases selfClosing with
          | true =>
              obtain ⟨content, rest', tail, separated, rfl, rfl, ends⟩ := ih _ shorter' closes rfl
              exact ⟨.empty tag content, rest', tail, separated, by simp [Content.render],
                by simp [Content.tokens], by simpa [Content.render, Nat.add_assoc] using ends⟩
          | false =>
              obtain ⟨inner, rest', tail, separated, rfl, rfl, ends⟩ := ih _ shorter' closes rfl
              cases ends with
              | closed ending rest' later goesOn =>
                  obtain ⟨content, rest', tail, separated', rfl, rfl, ends⟩ :=
                    ih _ (by simp only [List.length_append] at shorter' ⊢; omega) goesOn rfl
                  refine ⟨.filled tag inner ending content, rest', tail, ⟨separated, separated'⟩,
                    by simp [Content.render, filledRender],
                    by simp [Content.tokens, filledRender, Nat.add_assoc], ?_⟩
                  simpa [Content.render, filledRender, Nat.add_assoc] using ends
              | unclosed rest' tail_open =>
                  have deeper := OpenTail.deeper offset tag inner tail_open
                  rw [List.append_assoc] at deeper
                  exact ⟨.nil, _, _, trivial, rfl, rfl, .unclosed _ deeper⟩
      | endTag source =>
          exact ⟨.nil, source.render ++ rest, _, trivial, rfl, rfl,
            .closed source rest later goesOn⟩

/-- Behind the root element stand comments and instructions, wherever it ends. -/
theorem exists_asides {offset : Nat} {text : List Char} {tokens : List Token}
    (success : Scan.run .document .epilog ⟨offset, text⟩ = ⟨tokens, none⟩) :
    ∃ asides : List AsideSource, tokens = asides.map AsideSource.token ∧
      ∀ offset', Scan.run .document .epilog ⟨offset', text⟩ =
        ⟨asides.map AsideSource.token, none⟩ := by
  induction length : text.length using Nat.strongRecOn generalizing offset text tokens with
  | ind length ih =>
      subst length
      by_cases filled : text = []
      · subst filled
        have ends (offset' : Nat) : Scan.run .document .epilog ⟨offset', []⟩ = ⟨[], none⟩ := by
          rw [Scan.run]
          rfl
        rw [ends] at success
        cases success
        exact ⟨[], rfl, ends⟩
      obtain ⟨taken, rest, first, next, later, rfl, shorter, takes, rfl, goesOn⟩ :=
        Scan.takes_of_run filled success
      have step := Reader.takes_epilogStep_iff.mp takes
      have anywhere (offset' : Nat) : Mode.epilog.step.Takes offset' taken rest (first, next) :=
        Reader.takes_epilogStep_iff.mpr step
      have next_eq : next = .epilog := by
        cases step <;> rfl
      subst next_eq
      obtain ⟨asides, rfl, ends⟩ := ih _ shorter goesOn rfl
      have tokens_eq : ∃ more : List AsideSource, first = more.map AsideSource.token := by
        cases step with
        | blanks gap filled blank ends => exact ⟨[], rfl⟩
        | aside source => exact ⟨[source], rfl⟩
      obtain ⟨more, rfl⟩ := tokens_eq
      refine ⟨more ++ asides, by simp, ?_⟩
      intro offset'
      rw [Scan.run_of_takes (Extent.stopsIn_document _) (anywhere offset'), ends]
      simp [Scan.prepend]

/-- A document as it is written. -/
structure DocumentSource where
  opening : List Char
  prolog : List Char
  prologTokens : List Token
  mode : Mode
  root : ElementSource
  back : List Char
  asides : List AsideSource
  opens : Reader.opening.Takes 0 opening (prolog ++ (root.render ++ back)) ()
  passes : PassesOutside (root.render ++ back) .prolog (byteLength opening) prolog prologTokens mode
  lands : mode = .prolog ∨ mode = .preamble
  separated : root.inner.Separated
  ends : ∀ offset, Scan.run .document .epilog ⟨offset, back⟩ =
    ⟨asides.map AsideSource.token, none⟩

namespace DocumentSource

def render (source : DocumentSource) : List Char :=
  source.opening ++ (source.prolog ++ (source.root.render ++ source.back))

/-- The place of the root element. -/
def start (source : DocumentSource) : Nat :=
  byteLength source.opening + byteLength source.prolog

def tokens (source : DocumentSource) : List Token :=
  source.prologTokens ++ (source.root.tokens source.start ++
    source.asides.map AsideSource.token)

end DocumentSource

/-- The scanner reads an element where a mode lets its tag begin. -/
theorem ElementSource.run_root (source : ElementSource) (separated : source.inner.Separated)
    {mode : Mode} (lands : mode = .prolog ∨ mode = .preamble) (offset : Nat)
    (rest : List Char) :
    Scan.run .document mode ⟨offset, source.render ++ rest⟩ =
      (Scan.run .document .epilog ⟨offset + byteLength source.render, rest⟩).prepend
        (source.tokens offset) := by
  have starts (written : WrittenName) (place : Nat) (rest : List Char)
      (ends : ∀ c ∈ rest.head?, isNameCharacter c = false) :
      mode.step.Takes place ('<' :: written.run) rest
        ([.tagName written.name place], .tag 0) := by
    rcases lands with rfl | rfl
    · exact Reader.takes_prologStep_startTag _ written ends
    · exact Reader.takes_prologStep_startTag _ written ends
  cases source with
  | empty tag => exact tag.run true 0 offset rest (Extent.stopsIn_document _) (starts tag.name _)
  | filled tag inner ending =>
      have opened := tag.run false 0 offset (inner.render ++ (ending.render ++ rest))
        (Extent.stopsIn_document _) (starts tag.name _)
      have bracket : ∀ c ∈ (ending.render ++ rest).head?, c = '<' := by
        simp [EndSource.render]
      have closes (place : Nat) : (Mode.content 0).step.Takes place ending.render rest _ :=
        Reader.takes_contentStep_iff.mpr (.endTag ending)
      rw [render, filledRender, List.append_assoc, List.append_assoc, opened]
      simp only [Mode.afterTag, Bool.false_eq_true, if_false]
      rw [inner.run separated _ _ _ bracket,
        Scan.run_of_takes (Extent.stopsIn_document _) (closes _)]
      simp [Mode.afterElement, tokens, filledRender, Nat.add_assoc]

theorem DocumentSource.scan (source : DocumentSource) :
    Scan.document source.render = ⟨source.tokens, none⟩ := by
  have opens := source.opens
  rw [Reader.Takes] at opens
  rw [Scan.document, render, opens]
  dsimp only
  rw [Nat.zero_add, source.passes.passes.run, source.root.run_root source.separated source.lands,
    source.ends]
  simp [Scan.prepend, tokens, start]

/-- A text that the scanner reads was written as a document, or its root element is missing or never
closed. -/
theorem exists_documentSource {text : List Char} {tokens : List Token}
    (success : Scan.document text = ⟨tokens, none⟩) :
    (∃ source : DocumentSource, source.render = text ∧ source.tokens = tokens) ∨
      ∃ (first tail : List Token) (place : Nat), tokens = first ++ tail ∧
        (∀ token ∈ first, token.IsOutside) ∧ OpenTail place tail := by
  rw [Scan.document] at success
  split at success
  · cases success
  rename_i stop opened
  obtain ⟨opening, equal, place, opens⟩ := Reader.takes_of_read opened
  dsimp only at equal place opens
  obtain ⟨offset, body⟩ := stop
  dsimp only at equal place opens
  subst equal place
  rcases exists_passesOutside rfl success with outside |
    ⟨prolog, written, rest, first, later, mode, rfl, passes, lands, rfl, goesOn⟩
  · exact .inr ⟨tokens, [], 0, by simp, outside, .ended 0⟩
  rcases exists_startTag goesOn with broken |
    ⟨tag, selfClosing, rest', last, equal, tokens_eq, closes⟩
  · exact .inr ⟨first, _, _, rfl, passes.outside, broken⟩
  have whole : prolog ++ '<' :: written.run ++ rest =
      prolog ++ (tag.render ++ closing selfClosing ++ rest') := by
    rw [List.append_assoc, equal]
  rw [whole] at opens ⊢
  rw [equal] at passes
  rw [tokens_eq]
  rw [Nat.zero_add] at passes closes ⊢
  cases selfClosing with
  | true =>
      obtain ⟨asides, rfl, ends⟩ := exists_asides closes
      exact .inl ⟨⟨opening, prolog, first, mode, .empty tag, rest', asides, opens, passes, lands,
        trivial, ends⟩, rfl, rfl⟩
  | false =>
      obtain ⟨inner, rest', tail, separated, rfl, rfl, ends⟩ := exists_content closes
      cases ends with
      | closed ending rest' later goesOn =>
          obtain ⟨asides, rfl, ends⟩ := exists_asides goesOn
          have split : tag.render ++ closing false ++ (inner.render ++ (ending.render ++ rest')) =
              (ElementSource.filled tag inner ending).render ++ rest' := by
            simp [ElementSource.render, filledRender]
          rw [split] at opens passes ⊢
          refine .inl ⟨⟨opening, prolog, first, mode, .filled tag inner ending, rest', asides, opens,
            passes, lands, separated, ends⟩, rfl, ?_⟩
          simp [DocumentSource.tokens, DocumentSource.start, ElementSource.tokens, filledRender,
            Nat.add_assoc]
      | unclosed rest' tail_open =>
          have deeper := OpenTail.deeper _ tag inner tail_open
          rw [List.append_assoc] at deeper
          exact .inr ⟨first, _, _, rfl, passes.outside, deeper⟩

end RunSigning.Markup
