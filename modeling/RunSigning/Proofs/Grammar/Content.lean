import RunSigning.Proofs.Grammar.Leaf

/-
This file describes the content of elements as it is written, nested elements included. The
scanner reads written content as its tokens and goes on with the text after it.
-/

namespace RunSigning.Markup
open RunSigning.Text

/-- Content as it is written, piece by piece. -/
inductive Content where
  | nil
  | text (run : List Char) (fits : Reader.IsTextRun run) (rest : Content)
  | marked (source : SectionSource) (rest : Content)
  | aside (source : AsideSource) (rest : Content)
  | empty (tag : TagSource) (rest : Content)
  | filled (tag : TagSource) (inner : Content) (ending : EndSource) (rest : Content)

/-- The start tag up to its closing bracket. -/
def TagSource.render (source : TagSource) : List Char :=
  '<' :: source.name.run ++ source.attributes.flatMap AttributeSource.render ++ source.gap

/-- An element with content, whose inner text is given. -/
def filledRender (tag : TagSource) (inner : List Char) (ending : EndSource) : List Char :=
  tag.render ++ closing false ++ inner ++ ending.render

def Content.render : Content → List Char
  | .nil => []
  | .text run _ rest => run ++ rest.render
  | .marked source rest => source.render ++ rest.render
  | .aside source rest => source.render ++ rest.render
  | .empty tag rest => tag.render ++ closing true ++ rest.render
  | .filled tag inner ending rest => filledRender tag inner.render ending ++ rest.render

def attributeTokens (offset : Nat) : List AttributeSource → List Token
  | [] => []
  | source :: rest =>
      .attr (source.written offset) :: attributeTokens (offset + byteLength source.render) rest

/-- The tokens of a start tag that begins at the given offset. -/
def TagSource.tokens (source : TagSource) (offset : Nat) (selfClosing : Bool) : List Token :=
  .tagName source.name.name offset ::
    attributeTokens (offset + byteLength ('<' :: source.name.run)) source.attributes ++
      [.tagEnd selfClosing (offset + byteLength (source.render ++ closing selfClosing))]

/-- The tokens of content that begins at the given offset. -/
def Content.tokens : Nat → Content → List Token
  | _, .nil => []
  | offset, .text run _ rest =>
      .text ⟨offset, run⟩ :: rest.tokens (offset + byteLength run)
  | offset, .marked source rest =>
      .verbatim source.text :: rest.tokens (offset + byteLength source.render)
  | offset, .aside source rest =>
      source.token :: rest.tokens (offset + byteLength source.render)
  | offset, .empty tag rest =>
      tag.tokens offset true ++ rest.tokens (offset + byteLength (tag.render ++ closing true))
  | offset, .filled tag inner ending rest =>
      let start := offset + byteLength (tag.render ++ closing false)
      let stop := offset + byteLength (filledRender tag inner.render ending)
      tag.tokens offset false ++ inner.tokens start ++
        .endTag ending.name.name ⟨start + byteLength inner.render, stop⟩ :: rest.tokens stop

def Content.beginsWithText : Content → Bool
  | .text _ _ _ => true
  | _ => false

/-- No run of text follows another one. -/
def Content.Separated : Content → Prop
  | .nil => True
  | .text _ _ rest => rest.beginsWithText = false ∧ rest.Separated
  | .marked _ rest => rest.Separated
  | .aside _ rest => rest.Separated
  | .empty _ rest => rest.Separated
  | .filled _ inner _ rest => inner.Separated ∧ rest.Separated

/-- Content goes on with more content. -/
def Content.append : Content → Content → Content
  | .nil, more => more
  | .text run fits rest, more => .text run fits (rest.append more)
  | .marked source rest, more => .marked source (rest.append more)
  | .aside source rest, more => .aside source (rest.append more)
  | .empty tag rest, more => .empty tag (rest.append more)
  | .filled tag inner ending rest, more => .filled tag inner ending (rest.append more)

@[simp] theorem Content.render_append (first second : Content) :
    (first.append second).render = first.render ++ second.render := by
  induction first with
  | nil => rfl
  | text run fits rest ih => simp [append, render, ih]
  | marked source rest ih => simp [append, render, ih]
  | aside source rest ih => simp [append, render, ih]
  | empty tag rest ih => simp [append, render, ih]
  | filled tag inner ending rest innerIh ih => simp [append, render, ih]

@[simp] theorem Content.append_append (first second third : Content) :
    (first.append second).append third = first.append (second.append third) := by
  induction first with
  | nil => rfl
  | text run fits rest ih => simp [append, ih]
  | marked source rest ih => simp [append, ih]
  | aside source rest ih => simp [append, ih]
  | empty tag rest ih => simp [append, ih]
  | filled tag inner ending rest innerIh ih => simp [append, ih]

/-- An element as it is written. -/
inductive ElementSource where
  | empty (tag : TagSource)
  | filled (tag : TagSource) (inner : Content) (ending : EndSource)

namespace ElementSource

def tag : ElementSource → TagSource
  | .empty tag => tag
  | .filled tag _ _ => tag

def isEmpty : ElementSource → Bool
  | .empty _ => true
  | .filled _ _ _ => false

def inner : ElementSource → Content
  | .empty _ => .nil
  | .filled _ inner _ => inner

def render : ElementSource → List Char
  | .empty tag => tag.render ++ closing true
  | .filled tag inner ending => filledRender tag inner.render ending

/-- The tokens of an element that begins at the given offset. -/
def tokens (offset : Nat) : ElementSource → List Token
  | .empty tag => tag.tokens offset true
  | .filled tag inner ending =>
      let start := offset + byteLength (tag.render ++ closing false)
      tag.tokens offset false ++ inner.tokens start ++
        [.endTag ending.name.name ⟨start + byteLength inner.render,
          offset + byteLength (filledRender tag inner.render ending)⟩]

/-- The element comes before other content. -/
def before : ElementSource → Content → Content
  | .empty tag, rest => .empty tag rest
  | .filled tag inner ending, rest => .filled tag inner ending rest

@[simp] theorem render_before (source : ElementSource) (rest : Content) :
    (source.before rest).render = source.render ++ rest.render := by
  cases source <;> rfl

@[simp] theorem tokens_before (source : ElementSource) (rest : Content) (offset : Nat) :
    (source.before rest).tokens offset =
      source.tokens offset ++ rest.tokens (offset + byteLength source.render) := by
  cases source with
  | empty tag => rfl
  | filled tag inner ending => simp [before, Content.tokens, tokens, render]

@[simp] theorem separated_before (source : ElementSource) (rest : Content) :
    (source.before rest).Separated ↔ source.inner.Separated ∧ rest.Separated := by
  cases source <;> simp [before, Content.Separated, inner]

@[simp] theorem before_append (source : ElementSource) (rest more : Content) :
    (source.before rest).append more = source.before (rest.append more) := by
  cases source <;> rfl

@[simp] theorem beginsWithText_before (source : ElementSource) (rest : Content) :
    (source.before rest).beginsWithText = false := by
  cases source <;> rfl

end ElementSource

@[simp] theorem Content.tokens_append (first second : Content) (offset : Nat) :
    (first.append second).tokens offset =
      first.tokens offset ++ second.tokens (offset + byteLength first.render) := by
  induction first generalizing offset with
  | nil => rfl
  | text run fits rest ih => simp [append, tokens, render, ih, Nat.add_assoc]
  | marked source rest ih => simp [append, tokens, render, ih, Nat.add_assoc]
  | aside source rest ih => simp [append, tokens, render, ih, Nat.add_assoc]
  | empty tag rest ih => simp [append, tokens, render, ih, Nat.add_assoc]
  | filled tag inner ending rest innerIh ih =>
      simp [append, tokens, render, ih, Nat.add_assoc]

theorem TagSource.exists_render (source : TagSource) :
    ∃ c rest, source.render = '<' :: c :: rest ∧ isNameStart c = true := by
  obtain ⟨c, run, equal, start⟩ := source.name.exists_cons
  exact ⟨c, run ++ (source.attributes.flatMap AttributeSource.render ++ source.gap),
    by simp [render, equal], start⟩

/-- The tokens come before those of a scan. -/
def Scan.prepend (tokens : List Token) (scan : Scan) : Scan :=
  ⟨tokens ++ scan.tokens, scan.failure?⟩

@[simp] theorem Scan.prepend_nil (scan : Scan) : scan.prepend [] = scan := rfl

@[simp] theorem Scan.prepend_prepend (first second : List Token) (scan : Scan) :
    (scan.prepend second).prepend first = scan.prepend (first ++ second) := by
  simp [prepend]

/-- Whether a scan of the extent stops in the mode. -/
def Extent.stopsIn (extent : Extent) (mode : Mode) : Bool :=
  extent == .replacement && mode == .epilog

@[simp] theorem Extent.stopsIn_document (mode : Mode) : Extent.document.stopsIn mode = false := rfl

@[simp] theorem Extent.stopsIn_tag (extent : Extent) (level : Nat) :
    extent.stopsIn (.tag level) = false := by
  cases extent <;> rfl

@[simp] theorem Extent.stopsIn_content (extent : Extent) (level : Nat) :
    extent.stopsIn (.content level) = false := by
  cases extent <;> rfl

/-- The scanner goes on after a step. -/
theorem Scan.run_of_takes {extent : Extent} {mode next : Mode} {offset : Nat}
    {taken rest : List Char} {tokens : List Token} (goesOn : extent.stopsIn mode = false)
    (takes : mode.step.Takes offset taken rest (tokens, next)) :
    Scan.run extent mode ⟨offset, taken ++ rest⟩ =
      (Scan.run extent next ⟨offset + byteLength taken, rest⟩).prepend tokens := by
  have shorter := mode.step_advances _ _ _ takes
  have filled : (taken ++ rest).isEmpty = false := by
    rw [List.isEmpty_eq_false_iff]
    rintro empty
    rw [empty] at shorter
    simp at shorter
  rw [Scan.run, if_neg (by rw [filled, Bool.false_or]; simpa [Extent.stopsIn] using goesOn)]
  rw [Reader.Takes] at takes
  split
  · rename_i failure equal
    rw [takes] at equal
    cases equal
  · rename_i tokens' next' stop equal
    rw [takes] at equal
    cases equal
    rfl

/-- What a successful scan does first. -/
theorem Scan.takes_of_run {mode : Mode} {offset : Nat} {text : List Char} {tokens : List Token}
    (filled : text ≠ []) (success : Scan.run .document mode ⟨offset, text⟩ = ⟨tokens, none⟩) :
    ∃ taken rest first next later, text = taken ++ rest ∧ rest.length < text.length ∧
      mode.step.Takes offset taken rest (first, next) ∧ tokens = first ++ later ∧
      Scan.run .document next ⟨offset + byteLength taken, rest⟩ = ⟨later, none⟩ := by
  rw [Scan.run, if_neg (by simp [filled])] at success
  split at success
  · cases success
  · rename_i first next stop equal
    have shorter := mode.step_advances _ _ _ equal
    obtain ⟨taken, split, place, takes⟩ := Reader.takes_of_read equal
    dsimp only at split place takes shorter success
    rw [Scan.mk.injEq] at success
    refine ⟨taken, stop.rest, first, next, _, split, shorter, takes, success.1.symm, ?_⟩
    rw [← place, ← success.2]

theorem run_attributes (extent : Extent) (level offset : Nat) (attributes : List AttributeSource)
    (rest : List Char) :
    Scan.run extent (.tag level)
        ⟨offset, attributes.flatMap AttributeSource.render ++ rest⟩ =
      (Scan.run extent (.tag level)
        ⟨offset + byteLength (attributes.flatMap AttributeSource.render), rest⟩).prepend
        (attributeTokens offset attributes) := by
  induction attributes generalizing offset with
  | nil => rfl
  | cons source attributes ih =>
      have takes : (Mode.tag level).step.Takes offset source.render
          (attributes.flatMap AttributeSource.render ++ rest)
          ([.attr (source.written offset)], .tag level) :=
        Reader.takes_tagStep_iff.mpr (.another source)
      rw [List.flatMap_cons, List.append_assoc,
        Scan.run_of_takes (extent.stopsIn_tag level) takes, ih,
        Scan.prepend_prepend, byteLength_append, Nat.add_assoc]
      rfl

/-- The name in a start tag is followed by a blank or by the closing bracket. -/
theorem TagSource.name_ends (source : TagSource) (selfClosing : Bool) (rest : List Char) :
    ∀ c ∈ (source.attributes.flatMap AttributeSource.render ++
      (source.gap ++ (closing selfClosing ++ rest))).head?, isNameCharacter c = false := by
  cases source.attributes with
  | nil =>
      have blank := source.gap_blank
      revert blank
      cases source.gap with
      | nil => cases selfClosing <;> simp [closing] <;> decide
      | cons d gap =>
          intro blank
          simpa using not_isNameCharacter_of_isSpace (blank d (by simp))
  | cons first later =>
      obtain ⟨d, lead, led⟩ := List.exists_cons_of_ne_nil first.lead_filled
      have blank := first.lead_blank d (by simp [led])
      simpa [AttributeSource.render, AttributeSource.opening, led] using
        not_isNameCharacter_of_isSpace blank

/-- The scanner reads a start tag if the mode lets one begin. -/
theorem TagSource.run (source : TagSource) (selfClosing : Bool) (level offset : Nat)
    (rest : List Char) {extent : Extent} {mode : Mode} (goesOn : extent.stopsIn mode = false)
    (starts : ∀ rest, (∀ c ∈ rest.head?, isNameCharacter c = false) →
      mode.step.Takes offset ('<' :: source.name.run) rest
        ([.tagName source.name.name offset], .tag level)) :
    Scan.run extent mode ⟨offset, source.render ++ closing selfClosing ++ rest⟩ =
      (Scan.run extent (.afterTag level selfClosing)
        ⟨offset + byteLength (source.render ++ closing selfClosing), rest⟩).prepend
        (source.tokens offset selfClosing) := by
  have split : source.render ++ closing selfClosing ++ rest = '<' :: source.name.run ++
      (source.attributes.flatMap AttributeSource.render ++
        (source.gap ++ (closing selfClosing ++ rest))) := by
    simp [render]
  have closes (place : Nat) : (Mode.tag level).step.Takes place
      (source.gap ++ closing selfClosing) rest _ :=
    Reader.takes_tagStep_iff.mpr (.close source.gap source.gap_blank selfClosing)
  rw [split, Scan.run_of_takes goesOn (starts _ (source.name_ends selfClosing rest)),
    run_attributes, ← List.append_assoc source.gap,
    Scan.run_of_takes (extent.stopsIn_tag level) (closes _)]
  simp [render, tokens, Nat.add_assoc]

theorem Content.head_render {content : Content} (marked : content.beginsWithText = false)
    {rest : List Char} (ends : ∀ c ∈ rest.head?, c = '<') :
    ∀ c ∈ (content.render ++ rest).head?, c = '<' := by
  cases content with
  | nil => exact ends
  | text run fits rest => cases marked
  | marked source more =>
      obtain ⟨_, equal⟩ := source.exists_render
      simp [render, equal]
  | aside source more =>
      obtain ⟨_, _, equal, -⟩ := source.exists_render
      simp [render, equal]
  | empty tag more =>
      obtain ⟨_, _, equal, -⟩ := tag.exists_render
      simp [render, equal]
  | filled tag inner ending more =>
      obtain ⟨_, _, equal, -⟩ := tag.exists_render
      simp [render, filledRender, equal]

/-- In content the scanner reads a whole start tag. -/
theorem TagSource.run_content (source : TagSource) (selfClosing : Bool) (extent : Extent)
    (level offset : Nat) (rest : List Char) :
    Scan.run extent (.content level)
        ⟨offset, source.render ++ closing selfClosing ++ rest⟩ =
      (Scan.run extent (.afterTag (level + 1) selfClosing)
        ⟨offset + byteLength (source.render ++ closing selfClosing), rest⟩).prepend
        (source.tokens offset selfClosing) :=
  source.run selfClosing (level + 1) offset rest (extent.stopsIn_content level) fun _ ends =>
    Reader.takes_contentStep_iff.mpr (.startTag source.name ends)

/-- The scanner reads content as its tokens and goes on behind it. -/
theorem Content.run (content : Content) (separated : content.Separated) (extent : Extent)
    (level offset : Nat) {rest : List Char} (ends : ∀ c ∈ rest.head?, c = '<') :
    Scan.run extent (.content level) ⟨offset, content.render ++ rest⟩ =
      (Scan.run extent (.content level)
        ⟨offset + byteLength content.render, rest⟩).prepend (content.tokens offset) := by
  induction content generalizing level offset rest with
  | nil => rfl
  | text run fits more ih =>
      have takes : (Mode.content level).step.Takes offset run (more.render ++ rest) _ :=
        Reader.takes_contentStep_iff.mpr (.text run fits (head_render separated.1 ends))
      rw [render, List.append_assoc, Scan.run_of_takes (extent.stopsIn_content level) takes,
        ih separated.2 _ _ ends]
      simp [tokens, Nat.add_assoc]
  | marked source more ih =>
      have takes : (Mode.content level).step.Takes offset source.render (more.render ++ rest) _ :=
        Reader.takes_contentStep_iff.mpr (.marked source)
      rw [render, List.append_assoc, Scan.run_of_takes (extent.stopsIn_content level) takes,
        ih separated _ _ ends]
      simp [tokens, Nat.add_assoc]
  | aside source more ih =>
      have takes : (Mode.content level).step.Takes offset source.render (more.render ++ rest) _ :=
        Reader.takes_contentStep_iff.mpr (.aside source)
      rw [render, List.append_assoc, Scan.run_of_takes (extent.stopsIn_content level) takes,
        ih separated _ _ ends]
      simp [tokens, Nat.add_assoc]
  | empty tag more ih =>
      rw [render, List.append_assoc, tag.run_content true extent]
      simp only [Mode.afterTag, if_true, Mode.afterElement]
      rw [ih separated _ _ ends]
      simp [tokens, Nat.add_assoc]
  | filled tag inner ending more innerIh ih =>
      have closes (place : Nat) : (Mode.content (level + 1)).step.Takes place ending.render
          (more.render ++ rest) _ :=
        Reader.takes_contentStep_iff.mpr (.endTag ending)
      have bracket : ∀ c ∈ (ending.render ++ (more.render ++ rest)).head?, c = '<' := by
        simp [EndSource.render]
      rw [render, filledRender, List.append_assoc, List.append_assoc, List.append_assoc,
        tag.run_content false extent]
      simp only [Mode.afterTag, Bool.false_eq_true, if_false]
      rw [innerIh separated.1 _ _ bracket,
        Scan.run_of_takes (extent.stopsIn_content (level + 1)) (closes _)]
      simp only [Mode.afterElement]
      rw [ih separated.2 _ _ ends]
      simp [tokens, filledRender, Nat.add_assoc]

end RunSigning.Markup
