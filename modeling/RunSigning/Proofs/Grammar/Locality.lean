import RunSigning.Proofs.Grammar.Leaf

/-
This file shows that what stands before the root element is read without a look behind the
beginning of the root tag: another tag with the same first letter may follow it.
-/

namespace RunSigning.Markup
open RunSigning.Text

/-- Looking at a text does not reach behind the beginning of a tag. -/
def Steady {A : Type} (look : List Char → A) : Prop :=
  ∀ (text : List Char) (n : Char) (body body' : List Char), isNameStart n = true →
    look (text ++ '<' :: n :: body) = look (text ++ '<' :: n :: body')

/-- Whether looking for a literal is steady, as far as its characters tell. -/
def isSteady : List Char → Bool
  | [] => true
  | c :: more => !more.contains '<' && (c != '<' || more.head?.all fun d => !isNameStart d)

theorem startsWith_steady_of_not_mem {literal : List Char} (lacking : '<' ∉ literal) :
    Steady (startsWith literal) := by
  intro text n body body' _
  have held : '<' ∈ text ++ ['<'] := by simp
  rw [List.append_cons text '<' (n :: body), List.append_cons text '<' (n :: body'),
    startsWith_append_of_mem _ held lacking, startsWith_append_of_mem _ held lacking]

theorem startsWith_steady {literal : List Char} (steady : isSteady literal = true) :
    Steady (startsWith literal) := by
  cases literal with
  | nil =>
      intro text n body body' _
      rfl
  | cons c more =>
      simp only [isSteady, Bool.and_eq_true, Bool.not_eq_true', Bool.or_eq_true, bne_iff_ne] at steady
      obtain ⟨lacking, first⟩ := steady
      have lacking' : '<' ∉ more := by simpa using lacking
      by_cases bracket : c = '<'
      · subst bracket
        have apart := first.resolve_left (by simp)
        intro text n body body' named
        cases text with
        | nil =>
            cases more with
            | nil => simp [startsWith, strip?]
            | cons d more =>
                have different : d ≠ n := by
                  rintro rfl
                  simp [named] at apart
                simp [startsWith, strip?, different]
        | cons d text =>
            have later := startsWith_steady_of_not_mem lacking' text n body body' named
            rw [startsWith, startsWith] at later ⊢
            rw [List.cons_append, List.cons_append, strip?, strip?]
            split
            · exact later
            · rfl
      · refine startsWith_steady_of_not_mem ?_
        intro member
        rcases List.mem_cons.mp member with rfl | later
        · exact bracket rfl
        · exact lacking' later

theorem head?_steady : Steady (List.head? : List Char → Option Char) := by
  intro text n body body' _
  cases text <;> rfl

theorem Steady.comp {A B : Type} {look : List Char → A} (steady : Steady look) (f : A → B) :
    Steady fun text => f (look text) := by
  intro text n body body' named
  exact congrArg f (steady text n body body' named)

theorem isEmpty_steady : Steady (List.isEmpty : List Char → Bool) := by
  intro text n body body' _
  cases text <;> rfl

theorem Steady.breakAt {stop : List Char → Bool} (steady : Steady stop) {n : Char}
    {text rest : List Char} {body : List Char} (body' : List Char) (named : isNameStart n = true)
    (broken : Text.breakAt stop (text ++ (rest ++ '<' :: n :: body)) =
      (text, rest ++ '<' :: n :: body)) :
    Text.breakAt stop (text ++ (rest ++ '<' :: n :: body')) = (text, rest ++ '<' :: n :: body') := by
  rw [breakAt_eq_iff] at broken ⊢
  obtain ⟨-, goesOn, ends⟩ := broken
  refine ⟨rfl, ?_, ?_⟩
  · intro before after filled equal
    rw [← goesOn before after filled equal, ← List.append_assoc, ← List.append_assoc]
    exact steady _ _ _ _ named
  · intro _
    rw [← ends (by simp)]
    exact steady _ _ _ _ named

namespace Reader

variable {A B : Type}

/-- What a reader takes does not depend on what follows the beginning of a tag behind it. -/
def Local (reader : Reader A) : Prop :=
  ∀ (offset : Nat) (taken after : List Char) (n : Char) (body body' : List Char) (value : A),
    isNameStart n = true →
      reader.Takes offset taken (after ++ '<' :: n :: body) value →
        reader.Takes offset taken (after ++ '<' :: n :: body') value

namespace Local

protected theorem bind {first : Reader A} {next : A → Reader B} (one : first.Local)
    (two : ∀ value, (next value).Local) : (first >>= next).Local := by
  intro offset taken after n body body' value named takes
  obtain ⟨middle, before, later, rfl, begins, ends⟩ := takes_bind_iff.mp takes
  rw [← List.append_assoc] at begins
  have begins' := one _ _ _ _ _ body' _ named begins
  rw [List.append_assoc] at begins'
  exact takes_bind_iff.mpr
    ⟨middle, before, later, rfl, begins', two middle _ _ _ _ _ body' _ named ends⟩

protected theorem pure (value : A) : (pure value : Reader A).Local := by
  intro offset taken after n body body' value named takes
  exact takes_pure_iff.mpr (takes_pure_iff.mp takes)

protected theorem failAt (place : Nat) (fault : Fault) :
    (Reader.failAt place fault : Reader A).Local := by
  intro offset taken after n body body' value named takes
  exact absurd takes not_takes_failAt

protected theorem fail (fault : Fault) : (Reader.fail fault : Reader A).Local := by
  intro offset taken after n body body' value named takes
  exact absurd takes not_takes_fail

protected theorem ite {condition : Prop} [Decidable condition] {yes no : Reader A}
    (whenTrue : yes.Local) (whenFalse : no.Local) : (if condition then yes else no).Local := by
  split
  · exact whenTrue
  · exact whenFalse

/-- A reader that looks ahead is local if its look is steady. -/
protected theorem dispatch {next : Cursor → Reader A}
    (steady : ∀ offset, Steady fun rest => next ⟨offset, rest⟩) (goesOn : ∀ at', (next at').Local) :
    (cursor >>= next).Local := by
  intro offset taken after n body body' value named takes
  obtain ⟨_, before, later, rfl, looks, ends⟩ := takes_bind_iff.mp takes
  obtain ⟨rfl, rfl⟩ := takes_cursor_iff.mp looks
  have ends' := goesOn _ _ _ _ _ _ body' _ named ends
  refine takes_bind_iff.mpr ⟨_, [], later, rfl, takes_cursor_iff.mpr ⟨rfl, rfl⟩, ?_⟩
  have same := steady offset (later ++ after) n body body' named
  dsimp only at same
  rw [← List.append_assoc, ← same, List.append_assoc]
  exact ends'

protected theorem look {look : List Char → A} (steady : Steady look) :
    (do return look (← cursor).rest : Reader A).Local :=
  .dispatch (fun _ => steady.comp pure) fun _ => .pure _

protected theorem offset : Reader.offset.Local :=
  .dispatch (fun _ _ _ _ _ _ => rfl) fun _ => .pure _

protected theorem atEnd : Reader.atEnd.Local := .look isEmpty_steady

protected theorem sees {literal : String} (steady : isSteady literal.toList = true) :
    (Reader.sees literal).Local :=
  .look (startsWith_steady steady)

protected theorem seesSpace : Reader.seesSpace.Local := .look (head?_steady.comp _)

protected theorem literal (text : String) : (Reader.literal text).Local := by
  intro offset taken after n body body' value named takes
  exact takes_literal_iff.mpr (takes_literal_iff.mp takes)

protected theorem one (expected : Expected) (accept : Char → Bool) :
    (Reader.one expected accept).Local := by
  intro offset taken after n body body' value named takes
  exact takes_one_iff.mpr (takes_one_iff.mp takes)

protected theorem byte (c : Char) : (Reader.byte c).Local := .bind (.one _ _) fun _ => .pure _

protected theorem quote : Reader.quote.Local := .one _ _

protected theorem takeUntil {stop : List Char → Bool} (steady : Steady stop) :
    (Reader.takeUntil stop).Local := by
  intro offset taken after n body body' value named takes
  obtain ⟨rfl, broken⟩ := takes_takeUntil_iff.mp takes
  exact takes_takeUntil_iff.mpr ⟨rfl, steady.breakAt body' named broken⟩

protected theorem takeWhile (keep : Char → Bool) : (Reader.takeWhile keep).Local :=
  .takeUntil (head?_steady.comp _)

protected theorem spaces : Reader.spaces.Local := .bind (.takeWhile _) fun _ => .pure _

protected theorem someSpaces : Reader.someSpaces.Local := .bind (.one _ _) fun _ => .spaces

protected theorem refuse (wrong : Bool) (fault : Fault) : (Reader.refuse wrong fault).Local :=
  .ite (.fail _) (.pure _)

protected theorem refuseAt (place : Nat) (wrong : Bool) (fault : Fault) :
    (Reader.refuseAt place wrong fault).Local :=
  .ite (.failAt _ _) (.pure _)

protected theorem optionally {reader : Reader Unit} (wanted : Bool) (goesOn : reader.Local) :
    (Reader.optionally wanted reader).Local :=
  .ite goesOn (.pure _)

protected theorem characters {stop : List Char → Bool} (steady : Steady stop) :
    (Reader.characters stop).Local := by
  refine .bind .offset fun start => .bind (.takeUntil steady) fun text => ?_
  split
  · exact .failAt _ _
  · exact .pure _

protected theorem quoted : Reader.quoted.Local :=
  .bind .quote fun _ => .bind (.takeWhile _) fun _ => .bind (.byte _) fun _ => .pure _

protected theorem qualifiedName : Reader.qualifiedName.Local := by
  refine .bind .offset fun start => .bind (.takeWhile _) fun run => ?_
  split
  · exact .pure _
  · exact .failAt _ _

protected theorem name : Reader.name.Local := by
  refine .dispatch ?_ fun _ => .ite (.bind (.takeWhile _) fun _ => .pure _) (.fail _)
  intro offset text n body body' _
  cases text <;> rfl

protected theorem nameUnlessAtEnd : Reader.nameUnlessAtEnd.Local :=
  .bind .atEnd fun _ => .optionally _ (.bind .name fun _ => .pure _)

protected theorem writtenAttribute : Reader.writtenAttribute.Local := by
  refine .bind .offset fun _ => .bind .qualifiedName fun _ => .bind .offset fun _ => ?_
  refine .bind .spaces fun _ => .bind (.byte _) fun _ => .bind .spaces fun _ => ?_
  refine .bind .offset fun _ => .bind .quote fun _ => .bind .offset fun _ => ?_
  refine .bind (.characters (head?_steady.comp _)) fun _ => .bind (.byte _) fun _ => ?_
  exact .pure _

protected theorem startTag : Reader.startTag.Local :=
  .bind .offset fun _ => .bind (.literal _) fun _ => .bind .qualifiedName fun _ => .pure _

protected theorem comment : Reader.comment.Local := by
  refine .bind .offset fun _ => .bind (.literal _) fun _ => ?_
  refine .bind (.characters (startsWith_steady (by decide))) fun _ => .bind (.literal _) fun _ => ?_
  exact .bind (.refuseAt _ _ _) fun _ => .pure _

protected theorem instruction : Reader.instruction.Local := by
  refine .bind (.sees (by decide)) fun _ => .bind (.refuse _ _) fun _ => ?_
  refine .bind (.literal _) fun _ => .bind .name fun _ => .bind .spaces fun _ => ?_
  exact .bind (.characters (startsWith_steady (by decide))) fun _ =>
    .bind (.literal _) fun _ => .pure _

protected theorem declarationSpaces : Reader.declarationSpaces.Local := by
  refine .dispatch ?_ ?_
  · intro offset text n body body' _
    cases text <;> rfl
  · intro at'
    split
    · exact .pure _
    · exact .ite .spaces (.bind (.sees (by decide)) fun _ => .ite (.pure _) (.fail _))

protected theorem declaration : Reader.declaration.Local := by
  refine .bind (.literal _) fun _ => .bind .declarationSpaces fun _ => ?_
  refine .bind (.sees (by decide)) fun _ => .bind (.refuse _ _) fun _ => ?_
  refine .bind .writtenAttribute fun _ => .bind .declarationSpaces fun _ => ?_
  refine .bind (.sees (by decide)) fun _ => ?_
  refine .bind (.optionally _ (.bind .writtenAttribute fun _ => .declarationSpaces)) fun _ => ?_
  refine .bind (.sees (by decide)) fun _ => ?_
  refine .bind (.optionally _ (.bind .writtenAttribute fun _ => .pure _)) fun _ => ?_
  exact .bind .spaces fun _ => .literal _

protected theorem opening : Reader.opening.Local := by
  refine .bind (.sees (by decide)) fun _ => .bind (.optionally _ (.literal _)) fun _ => ?_
  exact .bind (.sees (by decide)) fun _ => .optionally _ .declaration

protected theorem externalId : Reader.externalId.Local := by
  refine .bind (.sees (by decide)) fun _ => .ite ?_ (.bind (.sees (by decide)) fun _ => .ite ?_ ?_)
  · refine .bind (.literal _) fun _ => .bind .someSpaces fun _ => ?_
    exact .bind .quoted fun _ => .pure _
  · refine .bind (.literal _) fun _ => .bind .someSpaces fun _ => .bind .quoted fun _ => ?_
    exact .bind .someSpaces fun _ => .bind .quoted fun _ => .pure _
  · exact .pure _

protected theorem doctype : Reader.doctype.Local := by
  refine .bind (.literal _) fun _ => .bind .someSpaces fun _ => .bind .nameUnlessAtEnd fun _ => ?_
  refine .bind .spaces fun _ => .bind .externalId fun _ => .bind .spaces fun _ => ?_
  exact .bind (.one _ _) fun _ => .pure _

protected theorem notationName : Reader.notationName.Local := by
  refine .bind .spaces fun _ => .bind (.sees (by decide)) fun _ => .optionally _ ?_
  exact .bind (.literal _) fun _ => .bind .someSpaces fun _ => .nameUnlessAtEnd

protected theorem definition (isParameter : Bool) : (Reader.definition isParameter).Local := by
  refine .dispatch ?_ ?_
  · intro offset text n body body' _
    cases text <;> rfl
  · intro at'
    split
    · exact .fail _
    · refine .ite (.bind .offset fun _ => .bind .quoted fun _ => .pure _) (.ite ?_ (.fail _))
      refine .bind .externalId fun _ => .bind (.refuse _ _) fun _ => ?_
      exact .bind (.optionally _ .notationName) fun _ => .pure _

protected theorem entity : Reader.entity.Local := by
  refine .bind (.literal _) fun _ => .bind .someSpaces fun _ => .bind (.sees (by decide)) fun _ => ?_
  refine .bind (.optionally _ (.bind (.literal _) fun _ => .someSpaces)) fun _ => ?_
  refine .bind .name fun _ => .bind .someSpaces fun _ => .bind (.definition _) fun _ => ?_
  exact .bind .spaces fun _ => .bind (.byte _) fun _ => .pure _

protected theorem skippedDeclaration (doctypeStart : Nat) (keyword : String) :
    (Reader.skippedDeclaration doctypeStart keyword).Local := by
  refine .bind (.literal _) fun _ => .bind (.takeWhile _) fun _ => .bind .atEnd fun _ => ?_
  exact .bind (.refuseAt _ _ _) fun _ => .byte _

protected theorem subsetEnd : Reader.subsetEnd.Local :=
  .bind (.literal _) fun _ => .bind .spaces fun _ => .byte _

protected theorem prologStep (mode : Mode) : (Reader.prologStep mode).Local := by
  refine .bind .seesSpace fun _ => .ite (.bind .someSpaces fun _ => .pure _) ?_
  refine .bind (.sees (by decide)) fun _ => .ite (.bind .comment fun _ => .pure _) ?_
  refine .bind (.sees (by decide)) fun _ => .ite (.bind .instruction fun _ => .pure _) ?_
  refine .bind (.sees (by decide)) fun _ =>
    .ite (.bind .offset fun _ => .bind .doctype fun _ => .pure _) ?_
  exact .bind (.sees (by decide)) fun _ => .ite (.bind .startTag fun _ => .pure _) (.fail _)

protected theorem subsetStep (doctypeStart : Nat) : (Reader.subsetStep doctypeStart).Local := by
  have skipped (keyword : String) : (do
      Reader.skippedDeclaration doctypeStart keyword
      return ([], .subset doctypeStart) : Reader (List Token × Mode)).Local :=
    .bind (.skippedDeclaration _ _) fun _ => .pure _
  refine .bind .seesSpace fun _ => .ite ?_ ?_
  · exact .bind .someSpaces fun _ => .bind .atEnd fun _ => .bind (.refuse _ _) fun _ => .pure _
  refine .bind (.sees (by decide)) fun _ => .ite (.bind .entity fun _ => .pure _) ?_
  refine .bind (.sees (by decide)) fun _ => .ite (.bind .comment fun _ => .pure _) ?_
  refine .bind (.sees (by decide)) fun _ => .ite (.bind .instruction fun _ => .pure _) ?_
  refine .bind (.sees (by decide)) fun _ => .ite (.bind .subsetEnd fun _ => .pure _) ?_
  refine .bind (.sees (by decide)) fun _ => .ite (skipped _) ?_
  refine .bind (.sees (by decide)) fun _ => .ite (skipped _) ?_
  exact .bind (.sees (by decide)) fun _ => .ite (skipped _) (.fail _)

end Local

end Reader

end RunSigning.Markup
