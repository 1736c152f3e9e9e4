import RunSigning.Markup.Token.Scan

/-
This file says that whatever ends a scan is reported. No reader knows of the fault that is not.
-/

namespace RunSigning.Markup

namespace Reader

variable {A B : Type}

/-- Every failure of a reader is reported. -/
def Reports (reader : Reader A) : Prop :=
  ∀ (start : Cursor) (failure : Failure),
    reader.read start = .error failure → failure.fault.isFatal = false

namespace Reports

protected theorem bind {first : Reader A} {next : A → Reader B} (one : first.Reports)
    (two : ∀ value, (next value).Reports) : (first >>= next).Reports := by
  intro start failure fails
  rw [read_bind] at fails
  cases begins : first.read start with
  | error other =>
      rw [begins] at fails
      obtain rfl := Except.error.inj fails
      exact one start other begins
  | ok result =>
      rw [begins] at fails
      exact two result.1 result.2 failure fails

protected theorem pure (value : A) : (pure value : Reader A).Reports := by
  intro start failure fails
  cases fails

protected theorem failAt (place : Nat) {fault : Fault} (reported : fault.isFatal = false) :
    (Reader.failAt place fault : Reader A).Reports := by
  intro start failure fails
  obtain rfl := Except.error.inj fails
  exact reported

protected theorem cursor : Reader.cursor.Reports := by
  intro start failure fails
  cases fails

protected theorem look (look : Cursor → A) : (do return look (← cursor) : Reader A).Reports :=
  .bind .cursor fun _ => .pure _

protected theorem offset : Reader.offset.Reports := .look _

protected theorem atEnd : Reader.atEnd.Reports := .look _

protected theorem sees (literal : String) : (Reader.sees literal).Reports := .look _

protected theorem seesSpace : Reader.seesSpace.Reports := .look _

protected theorem seesLoneBracket : Reader.seesLoneBracket.Reports := .look _

protected theorem fail {fault : Fault} (reported : fault.isFatal = false) :
    (Reader.fail fault : Reader A).Reports :=
  .bind .offset fun _ => .failAt _ reported

protected theorem ite {condition : Prop} [Decidable condition] {yes no : Reader A}
    (whenTrue : yes.Reports) (whenFalse : no.Reports) :
    (if condition then yes else no).Reports := by
  split
  · exact whenTrue
  · exact whenFalse

protected theorem refuse (wrong : Bool) {fault : Fault} (reported : fault.isFatal = false) :
    (Reader.refuse wrong fault).Reports :=
  .ite (.fail reported) (.pure _)

protected theorem refuseAt (place : Nat) (wrong : Bool) {fault : Fault}
    (reported : fault.isFatal = false) : (Reader.refuseAt place wrong fault).Reports :=
  .ite (.failAt _ reported) (.pure _)

protected theorem optionally {reader : Reader Unit} (wanted : Bool) (goesOn : reader.Reports) :
    (Reader.optionally wanted reader).Reports :=
  .ite goesOn (.pure _)

protected theorem takeUntil (stop : List Char → Bool) : (Reader.takeUntil stop).Reports := by
  intro start failure fails
  cases fails

protected theorem takeWhile (keep : Char → Bool) : (Reader.takeWhile keep).Reports :=
  .takeUntil _

protected theorem literal (text : String) : (Reader.literal text).Reports := by
  intro start failure fails
  simp only [Reader.literal] at fails
  split at fails
  · cases fails
  · obtain rfl := Except.error.inj fails
    rfl

protected theorem one (expected : Expected) (accept : Char → Bool) :
    (Reader.one expected accept).Reports := by
  intro start failure fails
  simp only [Reader.one] at fails
  split at fails
  · obtain rfl := Except.error.inj fails
    rfl
  · split at fails
    · cases fails
    · obtain rfl := Except.error.inj fails
      rfl

protected theorem byte (c : Char) : (Reader.byte c).Reports := .bind (.one _ _) fun _ => .pure _

protected theorem spaces : Reader.spaces.Reports := .bind (.takeWhile _) fun _ => .pure _

protected theorem someSpaces : Reader.someSpaces.Reports := .bind (.one _ _) fun _ => .spaces

protected theorem characters (stop : List Char → Bool) : (Reader.characters stop).Reports := by
  refine .bind .offset fun start => .bind (.takeUntil _) fun text => ?_
  split
  · exact .failAt _ rfl
  · exact .pure _

protected theorem quoted : Reader.quoted.Reports :=
  .bind (.one _ _) fun _ => .bind (.takeWhile _) fun _ => .bind (.byte _) fun _ => .pure _

protected theorem qualifiedName : Reader.qualifiedName.Reports := by
  refine .bind .offset fun start => .bind (.takeWhile _) fun run => ?_
  split
  · exact .pure _
  · exact .failAt _ rfl

protected theorem name : Reader.name.Reports :=
  .bind .cursor fun _ => .ite (.bind (.takeWhile _) fun _ => .pure _) (.fail rfl)

protected theorem nameUnlessAtEnd : Reader.nameUnlessAtEnd.Reports :=
  .bind .atEnd fun _ => .optionally _ (.bind .name fun _ => .pure _)

protected theorem writtenAttribute : Reader.writtenAttribute.Reports := by
  refine .bind .offset fun _ => .bind .qualifiedName fun _ => .bind .offset fun _ => ?_
  refine .bind .spaces fun _ => .bind (.byte _) fun _ => .bind .spaces fun _ => ?_
  refine .bind .offset fun _ => .bind (.one _ _) fun _ => .bind .offset fun _ => ?_
  exact .bind (.characters _) fun _ => .bind (.byte _) fun _ => .pure _

protected theorem startTag : Reader.startTag.Reports :=
  .bind .offset fun _ => .bind (.literal _) fun _ => .bind .qualifiedName fun _ => .pure _

protected theorem endTag : Reader.endTag.Reports := by
  refine .bind .offset fun _ => .bind (.literal _) fun _ => .bind .qualifiedName fun _ => ?_
  exact .bind .spaces fun _ => .bind (.byte _) fun _ => .bind .offset fun _ => .pure _

protected theorem comment : Reader.comment.Reports := by
  refine .bind .offset fun _ => .bind (.literal _) fun _ => .bind (.characters _) fun _ => ?_
  exact .bind (.literal _) fun _ => .bind (.refuseAt _ _ rfl) fun _ => .pure _

protected theorem instruction : Reader.instruction.Reports := by
  refine .bind (.sees _) fun _ => .bind (.refuse _ rfl) fun _ => .bind (.literal _) fun _ => ?_
  refine .bind .name fun _ => .bind .spaces fun _ => .bind (.characters _) fun _ => ?_
  exact .bind (.literal _) fun _ => .pure _

protected theorem markedSection : Reader.markedSection.Reports :=
  .bind (.literal _) fun _ => .bind (.characters _) fun _ => .bind (.literal _) fun _ => .pure _

protected theorem characterData : Reader.characterData.Reports := by
  refine .bind .offset fun _ => .bind (.characters _) fun _ => ?_
  exact .ite (.fail rfl) (.ite (.fail rfl) (.pure _))

protected theorem declarationSpaces : Reader.declarationSpaces.Reports := by
  refine .bind .cursor fun start => ?_
  split
  · exact .pure _
  · exact .ite .spaces (.bind (.sees _) fun _ => .ite (.pure _) (.fail rfl))

protected theorem declaration : Reader.declaration.Reports := by
  refine .bind (.literal _) fun _ => .bind .declarationSpaces fun _ => ?_
  refine .bind (.sees _) fun _ => .bind (.refuse _ rfl) fun _ => ?_
  refine .bind .writtenAttribute fun _ => .bind .declarationSpaces fun _ => ?_
  refine .bind (.sees _) fun _ => ?_
  refine .bind (.optionally _ (.bind .writtenAttribute fun _ => .declarationSpaces)) fun _ => ?_
  refine .bind (.sees _) fun _ => ?_
  refine .bind (.optionally _ (.bind .writtenAttribute fun _ => .pure _)) fun _ => ?_
  exact .bind .spaces fun _ => .literal _

protected theorem opening : Reader.opening.Reports := by
  refine .bind (.sees _) fun _ => .bind (.optionally _ (.literal _)) fun _ => ?_
  exact .bind (.sees _) fun _ => .optionally _ .declaration

protected theorem externalId : Reader.externalId.Reports := by
  refine .bind (.sees _) fun _ => .ite ?_ (.bind (.sees _) fun _ => .ite ?_ (.pure _))
  · refine .bind (.literal _) fun _ => .bind .someSpaces fun _ => ?_
    exact .bind .quoted fun _ => .pure _
  · refine .bind (.literal _) fun _ => .bind .someSpaces fun _ => .bind .quoted fun _ => ?_
    exact .bind .someSpaces fun _ => .bind .quoted fun _ => .pure _

protected theorem doctype : Reader.doctype.Reports := by
  refine .bind (.literal _) fun _ => .bind .someSpaces fun _ => .bind .nameUnlessAtEnd fun _ => ?_
  refine .bind .spaces fun _ => .bind .externalId fun _ => .bind .spaces fun _ => ?_
  exact .bind (.one _ _) fun _ => .pure _

protected theorem notationName : Reader.notationName.Reports := by
  refine .bind .spaces fun _ => .bind (.sees _) fun _ => .optionally _ ?_
  exact .bind (.literal _) fun _ => .bind .someSpaces fun _ => .nameUnlessAtEnd

protected theorem definition (isParameter : Bool) : (Reader.definition isParameter).Reports := by
  refine .bind .cursor fun start => ?_
  split
  · exact .fail rfl
  · refine .ite (.bind .offset fun _ => .bind .quoted fun _ => .pure _) (.ite ?_ (.fail rfl))
    refine .bind .externalId fun _ => .bind (.refuse _ rfl) fun _ => ?_
    exact .bind (.optionally _ .notationName) fun _ => .pure _

protected theorem entity : Reader.entity.Reports := by
  refine .bind (.literal _) fun _ => .bind .someSpaces fun _ => .bind (.sees _) fun _ => ?_
  refine .bind (.optionally _ (.bind (.literal _) fun _ => .someSpaces)) fun _ => ?_
  refine .bind .name fun _ => .bind .someSpaces fun _ => .bind (.definition _) fun _ => ?_
  exact .bind .spaces fun _ => .bind (.byte _) fun _ => .pure _

protected theorem skippedDeclaration (doctypeStart : Nat) (keyword : String) :
    (Reader.skippedDeclaration doctypeStart keyword).Reports := by
  refine .bind (.literal _) fun _ => .bind (.takeWhile _) fun _ => .bind .atEnd fun _ => ?_
  exact .bind (.refuseAt _ _ rfl) fun _ => .byte _

protected theorem subsetEnd : Reader.subsetEnd.Reports :=
  .bind (.literal _) fun _ => .bind .spaces fun _ => .byte _

protected theorem prologStep (mode : Mode) : (Reader.prologStep mode).Reports := by
  refine .bind .seesSpace fun _ => .ite (.bind .someSpaces fun _ => .pure _) ?_
  refine .bind (.sees _) fun _ => .ite (.bind .comment fun _ => .pure _) ?_
  refine .bind (.sees _) fun _ => .ite (.bind .instruction fun _ => .pure _) ?_
  refine .bind (.sees _) fun _ =>
    .ite (.bind .offset fun _ => .bind .doctype fun _ => .pure _) ?_
  exact .bind (.sees _) fun _ => .ite (.bind .startTag fun _ => .pure _) (.fail rfl)

protected theorem subsetStep (doctypeStart : Nat) : (Reader.subsetStep doctypeStart).Reports := by
  have skipped (keyword : String) : (do
      Reader.skippedDeclaration doctypeStart keyword
      return ([], .subset doctypeStart) : Reader (List Token × Mode)).Reports :=
    .bind (.skippedDeclaration _ _) fun _ => .pure _
  refine .bind .seesSpace fun _ => .ite ?_ ?_
  · exact .bind .someSpaces fun _ => .bind .atEnd fun _ => .bind (.refuse _ rfl) fun _ => .pure _
  refine .bind (.sees _) fun _ => .ite (.bind .entity fun _ => .pure _) ?_
  refine .bind (.sees _) fun _ => .ite (.bind .comment fun _ => .pure _) ?_
  refine .bind (.sees _) fun _ => .ite (.bind .instruction fun _ => .pure _) ?_
  refine .bind (.sees _) fun _ => .ite (.bind .subsetEnd fun _ => .pure _) ?_
  refine .bind (.sees _) fun _ => .ite (skipped _) ?_
  refine .bind (.sees _) fun _ => .ite (skipped _) ?_
  exact .bind (.sees _) fun _ => .ite (skipped _) (.fail rfl)

protected theorem tagStep (level : Nat) : (Reader.tagStep level).Reports := by
  refine .bind .seesSpace fun _ => .bind .spaces fun _ => .bind .atEnd fun _ => ?_
  refine .ite (.fail rfl) (.bind (.sees _) fun _ => .ite ?_ (.bind (.sees _) fun _ => .ite ?_ ?_))
  · exact .bind (.literal _) fun _ => .bind (.byte _) fun _ => .bind .offset fun _ => .pure _
  · exact .bind (.literal _) fun _ => .bind .offset fun _ => .pure _
  · exact .bind (.optionally _ .someSpaces) fun _ => .bind .writtenAttribute fun _ => .pure _

protected theorem contentStep (level : Nat) : (Reader.contentStep level).Reports := by
  refine .bind (.sees _) fun _ => .ite (.bind .comment fun _ => .pure _) ?_
  refine .bind (.sees _) fun _ => .ite (.bind .markedSection fun _ => .pure _) ?_
  refine .bind (.sees _) fun _ => .ite (.fail rfl) ?_
  refine .bind (.sees _) fun _ => .ite (.bind .instruction fun _ => .pure _) ?_
  refine .bind (.sees _) fun _ => .ite (.bind .endTag fun _ => .pure _) ?_
  refine .bind .seesLoneBracket fun _ => .ite (.fail rfl) ?_
  refine .bind (.sees _) fun _ => .ite (.bind .startTag fun _ => .pure _) ?_
  exact .bind .characterData fun _ => .pure _

protected theorem epilogStep : Reader.epilogStep.Reports := by
  refine .bind .seesSpace fun _ => .ite (.bind .someSpaces fun _ => .pure _) ?_
  refine .bind (.sees _) fun _ => .ite (.bind .comment fun _ => .pure _) ?_
  exact .bind (.sees _) fun _ => .ite (.bind .instruction fun _ => .pure _) (.fail rfl)

end Reports

end Reader

/-- Every step of the scanner reports its failures. -/
theorem Mode.step_reports (mode : Mode) : mode.step.Reports := by
  cases mode with
  | prolog => exact .prologStep _
  | preamble => exact .prologStep _
  | subset doctypeStart => exact .subsetStep _
  | tag level => exact .tagStep _
  | content level => exact .contentStep _
  | epilog => exact .epilogStep

end RunSigning.Markup
