import RunSigning.Proofs.Grammar.Reported
import RunSigning.Proofs.Meaning.Doctype

/-
This file says that a text that declares no entity never stops the parser. Wherever the scanner
stands in such a text, as many elements are open in the builder as it knows of, so no end tag comes
without an element to close.
-/

namespace RunSigning.Markup
open RunSigning.Text

/-- A result has a property, or it is a failure that is reported. -/
def Gives {A : Type} (result : Except Failure A) (holds : A → Prop) : Prop :=
  match result with
  | .ok value => holds value
  | .error failure => failure.fault.isFatal = false

namespace Gives

variable {A B : Type} {first : Except Failure A} {holds : A → Prop}

theorem bind {next : A → Except Failure B} {later : B → Prop} (one : Gives first holds)
    (two : ∀ value, holds value → Gives (next value) later) : Gives (first >>= next) later := by
  cases first with
  | error failure => exact one
  | ok value => exact two value one

theorem mono {weaker : A → Prop} (gives : Gives first holds)
    (follows : ∀ value, holds value → weaker value) : Gives first weaker := by
  cases first with
  | error failure => exact gives
  | ok value => exact follows value gives

theorem reports (gives : Gives first holds) {failure : Failure} (fails : first = .error failure) :
    failure.fault.isFatal = false := by
  subst fails
  exact gives

end Gives

section
variable {entities : Entities}

theorem countReference_gives (room stop references : Nat) :
    Gives (countReference room stop references) fun _ => True := by
  rw [countReference]
  split
  · trivial
  · split
    · exact rfl
    · trivial

theorem ValueState.extend_gives {outermost : Bool}
    {follow : Nat → Cursor → ValueState → Except Failure ValueState}
    (follows : ∀ stop replacement state, Gives (follow stop replacement state) fun _ => True)
    (chunks : List Chunk) (state : ValueState) :
    Gives (ValueState.extend entities outermost follow chunks state) fun _ => True := by
  induction chunks generalizing state with
  | nil => trivial
  | cons chunk rest ih =>
      cases chunk with
      | literal c =>
          rw [ValueState.extend]
          split
          · exact ih _
          · exact ih _
      | character c start =>
          rw [ValueState.extend]
          split
          · exact ih _
          split
          · exact rfl
          · exact ih _
      | entity name start stop =>
          rw [ValueState.extend]
          split
          · exact rfl
          split
          · rename_i failure failed
            exact (follows _ _ _).reports failed
          · exact ih _
      | malformed start => exact rfl

theorem ValueState.follow_gives (room stop : Nat) (replacement : Cursor) (state : ValueState) :
    Gives (ValueState.follow entities room stop replacement state) fun _ => True := by
  induction room generalizing stop replacement state with
  | zero => exact rfl
  | succ room ih =>
      refine (countReference_gives _ _ _).bind fun references _ => ?_
      exact (ValueState.extend_gives ih _ _).bind fun followed _ => trivial

theorem normalizeValue_gives (room references : Nat) (written : Cursor) :
    Gives (normalizeValue entities room references written) fun _ => True :=
  (ValueState.extend_gives (ValueState.follow_gives room) _ _).bind fun _ _ => trivial

end

theorem Scope.resolveAttribute_gives (scope : Scope) (written : WrittenAttribute) :
    Gives (scope.resolveAttribute written) fun _ => True := by
  rw [Scope.resolveAttribute]
  split
  · trivial
  split
  · trivial
  split
  · trivial
  · exact rfl

theorem Scope.resolveAttributes_gives (scope : Scope) (resolved : List Attribute)
    (waiting : List PendingAttribute) :
    Gives (scope.resolveAttributes resolved waiting) fun _ => True := by
  induction waiting generalizing resolved with
  | nil => trivial
  | cons held rest ih =>
      refine (scope.resolveAttribute_gives held.written).bind fun uri? _ => ?_
      dsimp only
      split
      · exact rfl
      · exact ih _

theorem Scope.resolveElement_gives (scope : Scope) (name : QualifiedName) (start : Nat) :
    Gives (scope.resolveElement name start) fun _ => True := by
  rw [Scope.resolveElement]
  split
  · trivial
  split
  · trivial
  · exact rfl

namespace Builder

/-- The same entities are declared, as many elements are open, and the last start tag is the
same. -/
structure Aligned (builder changed : Builder) : Prop where
  entities_eq : changed.entities = builder.entities
  depth_eq : changed.frames.length = builder.frames.length
  tag_eq : changed.tag? = builder.tag?

theorem Aligned.trans {builder middle changed : Builder} (one : builder.Aligned middle)
    (two : middle.Aligned changed) : builder.Aligned changed :=
  ⟨two.entities_eq.trans one.entities_eq, two.depth_eq.trans one.depth_eq,
    two.tag_eq.trans one.tag_eq⟩

variable (builder : Builder)

theorem aligned_withSiblings (siblings : List Node) :
    builder.Aligned (builder.withSiblings siblings) := by
  rw [withSiblings]
  split
  · exact ⟨rfl, rfl, rfl⟩
  · rename_i frame outer opened
    exact ⟨rfl, by rw [opened]; rfl, rfl⟩

theorem aligned_addNode (node : Node) : builder.Aligned (builder.addNode node) :=
  builder.aligned_withSiblings _

theorem aligned_addText (text : List Char) : builder.Aligned (builder.addText text) := by
  have joining : builder.Aligned { builder with joinsText := true } := ⟨rfl, rfl, rfl⟩
  rw [addText]
  split
  · exact joining.trans (aligned_withSiblings _ _)
  · exact joining.trans (aligned_withSiblings _ _)

theorem aligned_flush (buffer : List Char) : builder.Aligned (builder.flush buffer) := by
  rw [flush]
  split
  · exact ⟨rfl, rfl, rfl⟩
  · exact builder.aligned_addText _

/-- Text without entities to refer to opens and closes nothing. -/
theorem extend_gives {outermost unchanged : Bool}
    {follow : Nat → Cursor → Builder → Except Failure Builder} {chunks : List Chunk}
    {buffer : List Char} (undeclared : builder.entities = []) :
    Gives (builder.extend outermost follow chunks buffer unchanged) builder.Aligned := by
  induction chunks generalizing buffer unchanged with
  | nil => exact builder.aligned_flush buffer
  | cons chunk chunks ih =>
      cases chunk with
      | literal c =>
          rw [extend_literal]
          exact ih
      | character c start =>
          rw [extend_character]
          exact ih
      | entity name start stop =>
          rw [Builder.extend, undeclared]
          exact rfl
      | malformed start => exact rfl

theorem addAttribute_gives (written : WrittenAttribute) (value : String) :
    Gives (builder.addAttribute written value) builder.Aligned := by
  cases added : builder.addAttribute written value with
  | ok changed =>
      obtain ⟨-, rfl⟩ := addAttribute_eq_ok_iff.mp added
      exact ⟨rfl, rfl, rfl⟩
  | error failure =>
      simp only [addAttribute] at added
      repeat' split at added
      all_goals first
        | exact (Except.error.inj added) ▸ rfl
        | cases added

theorem attr_gives (room : Nat) (follow : Nat → Cursor → Builder → Except Failure Builder)
    (written : WrittenAttribute) :
    Gives (builder.add room follow (.attr written)) builder.Aligned := by
  refine (normalizeValue_gives room builder.references written.value).bind fun result _ => ?_
  have counted : builder.Aligned { builder with references := result.2 } := ⟨rfl, rfl, rfl⟩
  exact (addAttribute_gives _ written result.1).mono fun changed aligned => counted.trans aligned

/-- The end of a start tag opens an element, unless the tag is an element by itself. -/
theorem endStartTag_gives (tagged : builder.tag?.isSome = true) (selfClosing : Bool) (stop : Nat) :
    Gives (builder.endStartTag selfClosing stop) fun changed =>
      changed.entities = builder.entities ∧ changed.tag? = builder.tag? ∧
        changed.frames.length = builder.frames.length + if selfClosing then 0 else 1 := by
  rw [endStartTag]
  split
  · rename_i unknown
    rw [unknown] at tagged
    cases tagged
  rename_i name start known
  refine (Scope.resolveAttributes_gives _ _ _).bind fun attributes _ => ?_
  refine (Scope.resolveElement_gives _ _ _).bind fun uri? _ => ?_
  cases selfClosing with
  | true =>
      have settled : builder.Aligned { builder with bindings := [], attributes := [] } :=
        ⟨rfl, rfl, rfl⟩
      have added := settled.trans (aligned_addNode _ (.element
        ⟨name, uri?, attributes, ⟨start, stop⟩, true⟩ []))
      exact ⟨added.entities_eq, added.tag_eq, added.depth_eq⟩
  | false => exact ⟨rfl, rfl, rfl⟩

/-- An end tag closes one element of those that are open. -/
theorem endElement_gives (tagged : builder.tag?.isSome = true) {depth : Nat}
    (opened : builder.frames.length = depth + 1) (name : QualifiedName) (span : Span) :
    Gives (builder.endElement name span) fun changed =>
      changed.entities = builder.entities ∧ changed.tag? = builder.tag? ∧
        changed.frames.length = depth := by
  obtain ⟨frame, outer, frames⟩ := List.exists_cons_of_length_eq_add_one opened
  rw [endElement]
  split
  · rename_i unknown
    rw [unknown] at tagged
    cases tagged
  refine (Scope.resolveAttributes_gives _ _ _).bind fun _ _ => ?_
  rw [closeElement]
  dsimp only
  rw [frames]
  dsimp only
  split
  · have closed := aligned_addNode { builder with
        bindings := []
        attributes := []
        frames := outer } (.element ⟨frame.name, frame.uri?, frame.attributes,
          ⟨frame.start, span.stop⟩, false⟩ frame.children.reverse)
    rw [frames, List.length_cons, Nat.add_right_cancel_iff] at opened
    exact ⟨closed.entities_eq, closed.tag_eq, closed.depth_eq.trans opened⟩
  · exact rfl

end Builder

/-- The number of open elements where the scanner stands. -/
def Mode.depth : Mode → Nat
  | .tag level => level
  | .content level => level + 1
  | _ => 0

theorem Mode.depth_of_outside {mode : Mode} (outside : mode.isOutside = true) : mode.depth = 0 := by
  cases mode with
  | tag level => cases outside
  | content level => cases outside
  | _ => rfl

theorem Mode.depth_afterElement (level : Nat) : (Mode.afterElement level).depth = level := by
  cases level <;> rfl

theorem Mode.depth_afterTag (level : Nat) (selfClosing : Bool) :
    (Mode.afterTag level selfClosing).depth = level + if selfClosing then 0 else 1 := by
  cases selfClosing with
  | true => exact Mode.depth_afterElement level
  | false => rfl

/-- The builder has come as far as the scanner, and no entity is declared. -/
structure Builder.Follows (builder : Builder) (mode : Mode) : Prop where
  undeclared : builder.entities = []
  depth_eq : builder.frames.length = mode.depth
  tagged : mode.isOutside = false → builder.tag?.isSome = true

namespace Builder.Follows

variable {builder changed : Builder} {mode next : Mode} {room : Nat}
  {follow : Nat → Cursor → Builder → Except Failure Builder}

theorem of_aligned (follows : builder.Follows mode) (aligned : builder.Aligned changed)
    (depth : next.depth = mode.depth)
    (inside : next.isOutside = false → mode.isOutside = false) : changed.Follows next where
  undeclared := aligned.entities_eq.trans follows.undeclared
  depth_eq := aligned.depth_eq.trans (follows.depth_eq.trans depth.symm)
  tagged := fun within => by
    rw [aligned.tag_eq]
    exact follows.tagged (inside within)

/-- A comment or an instruction changes nothing about this. -/
theorem aside (follows : builder.Follows mode) (source : AsideSource) :
    Gives ([source.token].foldlM (Builder.add room follow) builder) (·.Follows mode) := by
  cases source with
  | comment => exact follows.of_aligned (builder.aligned_addNode _) rfl id
  | instruction => exact follows.of_aligned (builder.aligned_addNode _) rfl id

/-- The name of a start tag is remembered. -/
theorem tagName (follows : builder.Follows mode) (next : Mode) (depth : next.depth = mode.depth)
    (name : QualifiedName) (start : Nat) :
    Gives ([Token.tagName name start].foldlM (Builder.add room follow) builder)
      (·.Follows next) := by
  rw [List.foldlM_cons, Builder.add]
  split
  · exact rfl
  · exact ⟨follows.undeclared, follows.depth_eq.trans depth.symm, fun _ => rfl⟩

/-- The builder goes with the scanner over every step that declares nothing. -/
theorem step (follows : builder.Follows mode) {offset : Nat} {taken rest : List Char}
    {tokens : List Token} (takes : mode.step.Takes offset taken rest (tokens, next))
    (undeclared : tokens.filterMap Token.entity? = []) :
    Gives (tokens.foldlM (Builder.add room follow) builder) (·.Follows next) := by
  have unchanged : builder.Aligned builder := ⟨rfl, rfl, rfl⟩
  by_cases outside : mode.isOutside = true
  · have depth := Mode.depth_of_outside outside
    rcases takes.outsideStep outside with passed | ⟨-, written, -, equal⟩
    · have kept := passed.next_outside outside
      have depth' : next.depth = mode.depth := (Mode.depth_of_outside kept).trans depth.symm
      have apart (within : next.isOutside = false) : mode.isOutside = false :=
        absurd (kept.symm.trans within) (by decide)
      cases passed with
      | blanks mode => exact follows
      | aside mode source => exact follows.aside source
      | doctype next outside' => exact follows.of_aligned ⟨rfl, rfl, rfl⟩ depth' apart
      | subsetEnd start => exact follows.of_aligned unchanged depth' apart
      | entity start tokens declares =>
          cases tokens with
          | nil => exact follows
          | cons token tokens =>
              obtain ⟨name, replacement, rfl, -⟩ := declares token List.mem_cons_self
              cases undeclared
    · obtain ⟨rfl, rfl⟩ := Prod.mk.inj equal
      exact follows.tagName (.tag 0) depth.symm _ _
  · have inside : mode.isOutside = false := by simpa using outside
    have tagged := follows.tagged inside
    cases mode with
    | prolog => cases inside
    | preamble => cases inside
    | subset start => cases inside
    | epilog =>
        cases Reader.takes_epilogStep_iff.mp takes with
        | blanks gap filled blank ends => exact follows
        | aside source => exact follows.aside source
    | tag level =>
        cases Reader.takes_tagStep_iff.mp takes with
        | close gap blank selfClosing =>
            refine (builder.endStartTag_gives tagged selfClosing _).bind fun changed kept => ?_
            obtain ⟨entities, tag, depth⟩ := kept
            refine ⟨entities.trans follows.undeclared, ?_, fun _ => tag ▸ tagged⟩
            rw [depth, follows.depth_eq, Mode.depth_afterTag]
            rfl
        | another source =>
            exact (builder.attr_gives room follow _).bind fun changed aligned =>
              follows.of_aligned aligned rfl id
    | content level =>
        cases Reader.takes_contentStep_iff.mp takes with
        | aside source => exact follows.aside source
        | marked source => exact follows.of_aligned (builder.aligned_addText _) rfl id
        | text run fits ends =>
            exact (builder.extend_gives follows.undeclared).bind fun changed aligned =>
              follows.of_aligned aligned rfl id
        | startTag written ends => exact follows.tagName (.tag (level + 1)) rfl _ _
        | endTag source =>
            refine (builder.endElement_gives tagged follows.depth_eq _ _).bind fun changed kept => ?_
            obtain ⟨entities, tag, depth⟩ := kept
            refine ⟨entities.trans follows.undeclared, ?_, fun _ => tag ▸ tagged⟩
            rw [depth, Mode.depth_afterElement]

end Builder.Follows

section
variable {room : Nat} {follow : Nat → Cursor → Builder → Except Failure Builder}

/-- The builder goes with the scanner over every scan that declares nothing. -/
theorem Builder.Follows.addScan {builder : Builder} {extent : Extent} {mode : Mode} {start : Cursor}
    (follows : builder.Follows mode)
    (undeclared : (Scan.run extent mode start).tokens.filterMap Token.entity? = []) :
    Gives (builder.addScan room follow (Scan.run extent mode start)) fun _ => True := by
  fun_induction Scan.run extent mode start generalizing builder with
  | case1 => trivial
  | case2 mode start unfinished failure failed => exact mode.step_reports start failure failed
  | case3 mode start unfinished tokens next stop taken later =>
      rename_i ih
      rw [List.filterMap_append, List.append_eq_nil_iff] at undeclared
      obtain ⟨run, -, -, takes⟩ := Reader.takes_of_read taken
      rw [Builder.addScan, List.foldlM_append, bind_assoc]
      exact (follows.step takes undeclared.1).bind fun changed follows' => ih follows' undeclared.2

end

/-- A text that declares no entity never stops the parser: if it spells no tree, the failure is one
that is reported. -/
theorem Tree.parse_gives {text : String} (undeclared : declaredEntities text = []) :
    Gives (Tree.parse text) fun _ => True := by
  have scanned : Gives (Builder.empty.addScan nestingLimit (Builder.follow nestingLimit)
      (Scan.document text.toList)) fun _ => True := by
    rw [declaredEntities] at undeclared
    rw [Scan.document] at undeclared ⊢
    split
    · rename_i failure failed
      exact Reader.Reports.opening _ _ failed
    · rename_i start opened
      rw [opened] at undeclared
      have follows : Builder.empty.Follows .prolog := ⟨rfl, rfl, fun inside => by cases inside⟩
      exact follows.addScan undeclared
  refine scanned.bind fun grown _ => ?_
  rw [Builder.finish]
  split
  · exact rfl
  split
  · trivial
  · exact rfl

end RunSigning.Markup
