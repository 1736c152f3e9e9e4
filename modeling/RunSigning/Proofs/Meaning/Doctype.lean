import RunSigning.Proofs.Grammar.Allowed
import RunSigning.Proofs.Meaning.Tree

/-
This file says that a document declares entities only in its document type declaration. The tree
remembers the declaration, whatever comes after it, so a tree without one declares nothing.
-/

namespace RunSigning.Markup
open RunSigning.Text

/-- From the root tag on nothing is declared. -/
theorem Reader.Takes.undeclared_inside {mode next : Mode} (inside : mode.isOutside = false)
    {offset : Nat} {taken rest : List Char} {tokens : List Token}
    (takes : mode.step.Takes offset taken rest (tokens, next)) :
    tokens.filterMap Token.entity? = [] := by
  cases mode with
  | prolog => cases inside
  | preamble => cases inside
  | subset start => cases inside
  | tag level => cases takes_tagStep_iff.mp takes <;> rfl
  | content level =>
      cases takes_contentStep_iff.mp takes with
      | aside source => cases source <;> rfl
      | marked source => rfl
      | text run fits ends => rfl
      | startTag written ends => rfl
      | endTag source => rfl
  | epilog =>
      cases takes_epilogStep_iff.mp takes with
      | blanks gap filled blank ends => rfl
      | aside source => cases source <;> rfl

/-- Nothing is declared in a scan from there, however it ends. -/
theorem Scan.undeclared_inside {extent : Extent} {mode : Mode} {start : Cursor}
    (inside : mode.isOutside = false) :
    (Scan.run extent mode start).tokens.filterMap Token.entity? = [] := by
  fun_induction Scan.run extent mode start with
  | case1 => rfl
  | case2 => rfl
  | case3 mode start unfinished tokens next stop taken later ih =>
      obtain ⟨run, -, -, takes⟩ := Reader.takes_of_read taken
      rw [List.filterMap_append, takes.undeclared_inside inside,
        ih (takes.allAllowed_inside inside).2]
      rfl

/-- A step of the scanner outside the internal subset stays outside of it and declares nothing,
unless it begins a document type declaration. -/
theorem Reader.Takes.plain {mode next : Mode} (plain : ∀ start, mode ≠ .subset start)
    {offset : Nat} {taken rest : List Char} {tokens : List Token}
    (takes : mode.step.Takes offset taken rest (tokens, next)) (undeclared : .doctype ∉ tokens) :
    (∀ start, next ≠ .subset start) ∧ tokens.filterMap Token.entity? = [] := by
  by_cases outside : mode.isOutside = true
  · rcases takes.outsideStep outside with passed | ⟨-, written, -, equal⟩
    · exact passed.plain plain undeclared
    · cases equal
      exact ⟨by simp, rfl⟩
  · have inside : mode.isOutside = false := by simpa using outside
    have next_inside := (takes.allAllowed_inside inside).2
    refine ⟨?_, takes.undeclared_inside inside⟩
    rintro start rfl
    cases next_inside

/-- Without a document type declaration no entity is declared. -/
theorem Scan.plain {mode : Mode} (plain : ∀ start, mode ≠ .subset start) {offset : Nat}
    {text : List Char} {tokens : List Token}
    (success : Scan.run .document mode ⟨offset, text⟩ = ⟨tokens, none⟩)
    (undeclared : .doctype ∉ tokens) : tokens.filterMap Token.entity? = [] := by
  induction length : text.length using Nat.strongRecOn generalizing mode offset text tokens with
  | ind length ih =>
      subst length
      by_cases filled : text = []
      · subst filled
        rw [Scan.run, if_pos (by simp), Scan.mk.injEq] at success
        rw [← success.1]
        rfl
      obtain ⟨taken, rest, first, next, later, rfl, shorter, takes, rfl, goesOn⟩ :=
        Scan.takes_of_run filled success
      rw [List.mem_append, not_or] at undeclared
      obtain ⟨plain', none⟩ := takes.plain plain undeclared.1
      rw [List.filterMap_append, none, ih _ shorter plain' goesOn undeclared.2 rfl]
      rfl

namespace Builder

variable {builder changed : Builder}

@[simp] theorem hasDoctype_withSiblings (siblings : List Node) :
    (builder.withSiblings siblings).hasDoctype = builder.hasDoctype := by
  rw [withSiblings]
  split <;> rfl

@[simp] theorem hasDoctype_addNode (node : Node) :
    (builder.addNode node).hasDoctype = builder.hasDoctype :=
  hasDoctype_withSiblings _

@[simp] theorem hasDoctype_addText (text : List Char) :
    (builder.addText text).hasDoctype = builder.hasDoctype := by
  rw [addText]
  split <;> exact hasDoctype_withSiblings _

@[simp] theorem hasDoctype_flush (buffer : List Char) :
    (builder.flush buffer).hasDoctype = builder.hasDoctype := by
  rw [flush]
  split
  · rfl
  · exact hasDoctype_addText _

theorem hasDoctype_endStartTag {selfClosing : Bool} {stop : Nat}
    (success : builder.endStartTag selfClosing stop = .ok changed) :
    changed.hasDoctype = builder.hasDoctype := by
  rw [endStartTag] at success
  split at success
  · obtain rfl := Except.ok.inj success
    rfl
  · obtain ⟨attributes, -, success⟩ := bind_eq_ok_iff.mp success
    obtain ⟨uri?, -, success⟩ := bind_eq_ok_iff.mp success
    split at success
    · obtain rfl := Except.ok.inj success
      exact hasDoctype_addNode _
    · obtain rfl := Except.ok.inj success
      rfl

theorem hasDoctype_endElement {name : QualifiedName} {span : Span}
    (success : builder.endElement name span = .ok changed) :
    changed.hasDoctype = builder.hasDoctype := by
  rw [endElement] at success
  split at success
  · cases success
  · obtain ⟨attributes, -, success⟩ := bind_eq_ok_iff.mp success
    rw [closeElement] at success
    split at success
    · cases success
    · split at success
      · obtain rfl := Except.ok.inj success
        exact hasDoctype_addNode _
      · cases success

/-- A document type declaration is not forgotten. -/
def KeepsDoctype (goOn : Builder → Except Failure Builder) : Prop :=
  ∀ builder changed : Builder, goOn builder = .ok changed → builder.hasDoctype = true →
    changed.hasDoctype = true

section
variable {follow : Nat → Cursor → Builder → Except Failure Builder}

theorem keepsDoctype_extend (follows : ∀ stop replacement, KeepsDoctype (follow stop replacement))
    (outermost unchanged : Bool) (chunks : List Chunk) (buffer : List Char) :
    KeepsDoctype (Builder.extend outermost follow chunks buffer unchanged) := by
  intro builder changed success known
  induction chunks generalizing builder buffer unchanged with
  | nil =>
      obtain rfl := Except.ok.inj success
      rwa [hasDoctype_flush]
  | cons chunk chunks ih =>
      cases chunk with
      | literal c =>
          rw [extend_literal] at success
          exact ih _ _ _ success known
      | character c start =>
          rw [extend_character] at success
          exact ih _ _ _ success known
      | entity name start stop =>
          cases found : builder.entities.find? name with
          | none =>
              rw [Builder.extend, found] at success
              cases success
          | some replacement =>
              rw [extend_entity found] at success
              obtain ⟨followed, one, success⟩ := bind_eq_ok_iff.mp success
              exact ih _ _ _ success (follows stop replacement _ _ one (by rwa [hasDoctype_flush]))
      | malformed start => cases success

theorem keepsDoctype_add (room : Nat)
    (follows : ∀ stop replacement, KeepsDoctype (follow stop replacement)) (token : Token) :
    KeepsDoctype fun builder => Builder.add room follow builder token := by
  intro builder changed success known
  cases token with
  | doctype =>
      obtain rfl := Except.ok.inj success
      rfl
  | entity name replacement =>
      obtain rfl := Except.ok.inj success
      exact known
  | comment text =>
      obtain rfl := Except.ok.inj success
      rwa [hasDoctype_addNode]
  | instruction target data =>
      obtain rfl := Except.ok.inj success
      rwa [hasDoctype_addNode]
  | tagName name start =>
      dsimp only [Builder.add] at success
      split at success
      · cases success
      · obtain rfl := Except.ok.inj success
        exact known
  | attr written =>
      obtain ⟨⟨value, references⟩, -, success⟩ := bind_eq_ok_iff.mp success
      obtain ⟨-, rfl⟩ := addAttribute_eq_ok_iff.mp success
      exact known
  | tagEnd selfClosing stop => rwa [hasDoctype_endStartTag success]
  | endTag name span => rwa [hasDoctype_endElement success]
  | text written => exact keepsDoctype_extend follows _ _ _ _ _ _ success known
  | verbatim text =>
      obtain rfl := Except.ok.inj success
      rwa [hasDoctype_addText]

theorem keepsDoctype_foldlM (room : Nat)
    (follows : ∀ stop replacement, KeepsDoctype (follow stop replacement)) (tokens : List Token) :
    KeepsDoctype fun builder => tokens.foldlM (Builder.add room follow) builder := by
  intro builder changed success known
  induction tokens generalizing builder with
  | nil =>
      obtain rfl := Except.ok.inj success
      exact known
  | cons token tokens ih =>
      obtain ⟨middle, one, success⟩ := bind_eq_ok_iff.mp success
      exact ih _ success (keepsDoctype_add room follows token _ _ one known)

end

theorem keepsDoctype_follow (room stop : Nat) (replacement : Cursor) :
    KeepsDoctype (Builder.follow room stop replacement) := by
  induction room generalizing stop replacement with
  | zero =>
      intro builder changed success
      cases success
  | succ room ih =>
      intro builder changed success known
      obtain ⟨references, -, success⟩ := bind_eq_ok_iff.mp success
      obtain ⟨grown, grows, success⟩ := bind_eq_ok_iff.mp success
      obtain rfl := Except.ok.inj success
      obtain ⟨middle, tokens, success⟩ := bind_eq_ok_iff.mp grows
      split at success
      · cases success
      · obtain rfl := Except.ok.inj success
        have kept := keepsDoctype_foldlM room ih (Scan.replacement replacement).tokens
        exact kept { builder with tag? := none, references := references } middle tokens known

/-- The tokens after a document type declaration keep it in the tree. -/
theorem hasDoctype_addTokens {room : Nat} {tokens : List Token}
    (success : builder.addTokens room tokens = .ok changed) (declared : .doctype ∈ tokens) :
    changed.hasDoctype = true := by
  obtain ⟨front, back, rfl⟩ := List.append_of_mem declared
  obtain ⟨middle, -, success⟩ := addTokens_append_eq_ok_iff.mp success
  obtain ⟨marked, one, success⟩ := addTokens_cons_eq_ok_iff.mp success
  obtain rfl := Except.ok.inj one
  exact keepsDoctype_foldlM room (keepsDoctype_follow room) back _ _ success rfl

end Builder

/-- A tree without document type declaration comes from a text that declares nothing. -/
theorem declaredEntities_eq_nil {text : String} {tree : Tree}
    (success : Tree.parse text = .ok tree) (plain : tree.hasDoctype = false) :
    declaredEntities text = [] := by
  obtain ⟨tokens, scan⟩ := Tree.exists_scan success
  obtain ⟨grown, grows, finishes⟩ := (Tree.parse_eq_ok_iff_of_scan scan).mp success
  have same : grown.hasDoctype = tree.hasDoctype := by
    rw [Builder.finish] at finishes
    split at finishes
    · cases finishes
    · split at finishes
      · obtain rfl := Except.ok.inj finishes
        rfl
      · cases finishes
  have undeclared : .doctype ∉ tokens := by
    intro declared
    rw [Builder.hasDoctype_addTokens grows declared, plain] at same
    cases same
  rw [declaredEntities, scan]
  rw [Scan.document] at scan
  split at scan
  · cases scan
  · exact Scan.plain (by simp) scan undeclared

end RunSigning.Markup
