import RunSigning.Proofs.Meaning.Entity
import RunSigning.Proofs.Recording.Text

/-
This file says that the indentation of a new element is white space, and what white space in
content stands for.
-/

namespace RunSigning.Markup
open RunSigning.Text

/-- What a run of literal characters adds to a buffer, last character first. -/
def pushLiterals : List Char → List Char → List Char
  | buffer, [] => buffer
  | buffer, c :: run => pushLiterals (pushLiteral buffer c run.isEmpty) run

/-- Where no carriage return waits, a literal character is added to the others. -/
theorem pushLiteral_eq_cons {buffer : List Char} (settled : buffer.head? ≠ some '\r') (c : Char)
    (isLast : Bool) :
    pushLiteral buffer c isLast = (if isLast = true ∧ c = '\r' then '\n' else c) :: buffer := by
  unfold pushLiteral
  dsimp only
  split
  · exact absurd rfl settled
  · rfl

/-- Literal characters are added with their line breaks folded. -/
theorem pushLiterals_eq {buffer run : List Char} (settled : buffer.head? ≠ some '\r') :
    pushLiterals buffer run = (foldLineBreaks run).reverse ++ buffer := by
  have feed (buffer : List Char) : ('\n' :: buffer).head? ≠ some '\r' := by simp
  induction run using foldLineBreaks.induct generalizing buffer with
  | case1 rest ih =>
      rw [pushLiterals, pushLiterals, pushLiteral_eq_cons settled, foldLineBreaks]
      simpa [pushLiteral] using ih (feed buffer)
  | case2 rest other ih =>
      have step := ih (feed buffer)
      rw [pushLiterals, pushLiteral_eq_cons settled]
      rw [foldLineBreaks, List.reverse_cons, List.append_assoc, List.singleton_append, ← step]
      · cases rest with
        | nil => rfl
        | cons d rest =>
            have behind : d ≠ '\n' := fun equal => other rest (by rw [equal])
            rw [pushLiterals, pushLiterals, pushLiteral_eq_cons (feed buffer)]
            simp [pushLiteral, behind]
      · exact other
  | case3 c rest other other' ih =>
      have plain : c ≠ '\r' := other'
      rw [pushLiterals, pushLiteral_eq_cons settled, if_neg (by simp [plain]),
        ih (by simpa using plain), foldLineBreaks, List.reverse_cons, List.append_assoc]
      · rfl
      · exact other
      · exact other'
  | case4 => rfl

/-- Folding line breaks changes no other characters. -/
theorem filter_foldLineBreaks {keep : Char → Bool} (feed : keep '\n' = false)
    (back : keep '\r' = false) (text : List Char) :
    (foldLineBreaks text).filter keep = text.filter keep := by
  induction text using foldLineBreaks.induct with
  | case1 rest ih => simp [foldLineBreaks, feed, back, ih]
  | case2 rest other ih =>
      rw [foldLineBreaks]
      · simp [feed, back, ih]
      · exact other
  | case3 c rest other other' ih =>
      rw [foldLineBreaks]
      · rw [List.filter_cons, List.filter_cons, ih]
      · exact other
      · exact other'
  | case4 => rfl

theorem foldLineBreaks_ne_nil {text : List Char} (filled : text ≠ []) :
    foldLineBreaks text ≠ [] := by
  unfold foldLineBreaks
  split
  · exact List.cons_ne_nil _ _
  · exact List.cons_ne_nil _ _
  · exact List.cons_ne_nil _ _
  · exact filled

theorem Chunk.split_of_not_mem {run : List Char} (unreferenced : '&' ∉ run) (offset : Nat) :
    Chunk.split ⟨offset, run⟩ = run.map Chunk.literal := by
  induction run generalizing offset with
  | nil => simp
  | cons c run ih =>
      rw [List.mem_cons, not_or] at unreferenced
      rw [Chunk.split_literal (Ne.symm unreferenced.1), ih unreferenced.2]
      rfl

theorem extend_literals {outermost : Bool}
    {follow : Nat → Cursor → Builder → Except Failure Builder} (run buffer : List Char)
    (builder : Builder) :
    builder.extend outermost follow (run.map Chunk.literal) buffer false =
      .ok (builder.flush (pushLiterals buffer run)) := by
  induction run generalizing buffer with
  | nil => rfl
  | cons c run ih =>
      have last : (run.map Chunk.literal).isEmpty = run.isEmpty := by
        cases run <;> rfl
      rw [List.map_cons, extend_literal, last]
      exact ih _

/-- A run of literal characters stands for one text, with its line breaks folded. -/
theorem textReads_literal (entities : Entities) (room : Nat) (scope : Scope) (references : Nat)
    {run : List Char} (allowed : ∀ c ∈ run, isAllowed c = true) (unreferenced : '&' ∉ run)
    (filled : run ≠ []) :
    TextReads entities room scope references run [.text (String.ofList (foldLineBreaks run))]
      references := by
  have pushed : pushLiterals [] run = (foldLineBreaks run).reverse := by
    rw [pushLiterals_eq (by simp), List.append_nil]
  have shown : flushed (pushLiterals [] run) = [.text (String.ofList (foldLineBreaks run))] := by
    rw [pushed, flushed, if_neg (by simpa using foldLineBreaks_ne_nil filled), List.reverse_reverse]
  have stands := @standsFor_flush entities scope references (pushLiterals [] run) (by
    intro c member
    rw [pushed, List.mem_reverse] at member
    rcases mem_foldLineBreaks member with rfl | written
    · decide
    · exact allowed c written)
  rw [shown] at stands
  refine ⟨?_, stands.allowed, stands.before⟩
  intro offset builder ready
  obtain ⟨grown, success, growth⟩ := stands.grows builder ready
  refine ⟨grown, ?_, growth⟩
  rw [Builder.add, Chunk.split_of_not_mem unreferenced, extend_literals]
  exact success

/-- The first character of what occurs in a text is in the text. -/
theorem occurs_eq_false {c : Char} {part text : List Char} (lacking : c ∉ text) :
    occurs (c :: part) text = false := by
  have broken : breakAt (startsWith (c :: part)) text = (text, []) := by
    induction text with
    | nil => rfl
    | cons d text ih =>
        rw [List.mem_cons, not_or] at lacking
        have apart : startsWith (c :: part) (d :: text) = false := by
          simp [startsWith, strip?, lacking.1]
        rw [breakAt_cons, if_neg (by simp [apart]), ih lacking.2]
  rw [occurs, broken]
  rfl

/-- White space that a document may hold. -/
structure IsBlank (run : List Char) : Prop where
  white : ∀ c ∈ run, isWhiteSpace c = true
  allowed : ∀ c ∈ run, isAllowed c = true

theorem IsBlank.not_mem {run : List Char} (blank : IsBlank run) {c : Char}
    (shown : isWhiteSpace c = false) : c ∉ run := by
  intro member
  rw [blank.white c member] at shown
  cases shown

theorem IsBlank.isTextRun {run : List Char} (blank : IsBlank run) (filled : run ≠ []) :
    Reader.IsTextRun run := by
  have marked : "]]>".toList = [']', ']', '>'] := by decide +kernel
  refine ⟨filled, blank.allowed, blank.not_mem (by decide), ?_⟩
  rw [marked]
  exact occurs_eq_false (blank.not_mem (by decide))

/-- White space stands for a text of white space. -/
theorem IsBlank.textReads {run : List Char} (blank : IsBlank run) (filled : run ≠ [])
    (entities : Entities) (room : Nat) (scope : Scope) (references : Nat) :
    (∀ c ∈ foldLineBreaks run, isWhiteSpace c = true) ∧
      TextReads entities room scope references run [.text (String.ofList (foldLineBreaks run))]
        references := by
  refine ⟨fun c member => ?_, textReads_literal entities room scope references blank.allowed
    (blank.not_mem (by decide)) filled⟩
  rcases mem_foldLineBreaks member with rfl | written
  · decide
  · exact blank.white c written

theorem AllowedTexts.joinNode {siblings : List Node} {node : Node}
    (earlier : AllowedTexts siblings) (new : AllowedTexts [node]) :
    AllowedTexts (joinNode siblings node) := by
  rw [joinNode.eq_def]
  split
  · rename_i content siblings more
    have whole : ∀ c ∈ (content ++ more).toList, isAllowed c = true := by
      intro c member
      rw [String.toList_append] at member
      rcases List.mem_append.mp member with left | right
      · exact earlier content (by simp) c left
      · exact new more (by simp) c right
    intro text member
    rcases List.mem_cons.mp member with equal | later
    · obtain rfl := Node.text.inj equal
      exact whole
    · exact earlier text (List.mem_cons_of_mem _ later)
  · exact new.append earlier

/-- Joining texts brings no other characters in. -/
theorem AllowedTexts.joinNodes {siblings nodes : List Node} (earlier : AllowedTexts siblings)
    (later : AllowedTexts nodes) : AllowedTexts (joinNodes siblings nodes) := by
  induction nodes generalizing siblings with
  | nil => exact earlier
  | cons node nodes ih =>
      have first : AllowedTexts [node] := fun content member =>
        later content (by simpa using Or.inl (List.mem_singleton.mp member))
      have more : AllowedTexts nodes := fun content member =>
        later content (List.mem_cons_of_mem _ member)
      exact ih (earlier.joinNode first) more

end RunSigning.Markup

namespace RunSigning
open RunSigning.Text RunSigning.Markup

theorem lineIndent_blank {content : List Char} (allowed : ∀ c ∈ content, isAllowed c = true) :
    IsBlank (lineIndent content) := by
  rw [lineIndent]
  split
  · rename_i white
    rw [List.all_eq_true] at white
    split
    · exact ⟨fun c member => white c (mem_of_mem_after member),
        fun c member => allowed c (mem_of_mem_after member)⟩
    · exact ⟨white, allowed⟩
  · exact ⟨by simp, by simp⟩

/-- The indentation of a line is white space. -/
theorem indentAfter_blank {nodes : List Node} (allowed : AllowedTexts nodes) :
    IsBlank (indentAfter nodes) := by
  induction nodes with
  | nil => exact ⟨by simp [indentAfter], by simp [indentAfter]⟩
  | cons node nodes ih =>
      have later : AllowedTexts nodes := fun content member =>
        allowed content (List.mem_cons_of_mem _ member)
      cases node with
      | text content => exact lineIndent_blank (allowed content (by simp))
      | comment content => exact ih later
      | instruction target data => exact ih later
      | element tag children => exact ⟨by simp [indentAfter], by simp [indentAfter]⟩

/-- What is written in front of a new element behind the last one. -/
def Markup.Element.indent (element : Element) : List Char :=
  match lastElement? element.children.reverse with
  | some (_, earlier) => indentAfter earlier
  | none => []

end RunSigning

namespace RunSigning.Markup
open RunSigning.Text

/-- The shape of white space between two elements. -/
def indentGap (indent : List Char) : List Shape :=
  if indent.isEmpty then [] else [.text (String.ofList (foldLineBreaks indent))]

end RunSigning.Markup
