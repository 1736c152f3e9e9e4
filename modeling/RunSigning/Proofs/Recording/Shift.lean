import RunSigning.Proofs.Recording.Move
import RunSigning.Proofs.Recording.Place

/-
This file records a value in an element that stands behind more text. Where nothing is declared, it
takes the same edit, moved by the length of that text.
-/

namespace RunSigning.Text

/-- In front of its places, text with more around it can be cut as without. -/
theorem around?_within {span : Span} {text first last : List Char}
    (cut : around? span text = some (first, last)) (front behind : List Char) :
    around? (span.movedBy (byteLength front)) (front ++ (text ++ behind)) =
      some (front ++ first, last ++ behind) := by
  rw [around?] at cut
  split at cut
  · rename_i ordered
    cases left : splitAt? span.start text with
    | none => simp [left] at cut
    | some parts =>
        cases right : splitAt? span.stop text with
        | none => simp [left, right] at cut
        | some parts' =>
            obtain ⟨start, middle⟩ := parts
            obtain ⟨middle', stop⟩ := parts'
            simp only [left, right, Option.some.injEq, Prod.mk.injEq] at cut
            obtain ⟨rfl, rfl⟩ := cut
            obtain ⟨equal, place⟩ := splitAt?_eq_some_iff.mp left
            obtain ⟨equal', place'⟩ := splitAt?_eq_some_iff.mp right
            have left' : splitAt? (span.movedBy (byteLength front)).start
                (front ++ (text ++ behind)) = some (front ++ start, middle ++ behind) :=
              splitAt?_eq_some_iff.mpr ⟨by rw [equal]; simp, by
                rw [byteLength_append, place]; rfl⟩
            have right' : splitAt? (span.movedBy (byteLength front)).stop
                (front ++ (text ++ behind)) = some (front ++ middle', stop ++ behind) :=
              splitAt?_eq_some_iff.mpr ⟨by rw [equal']; simp, by
                rw [byteLength_append, place']; rfl⟩
            have ordered' : (span.movedBy (byteLength front)).start ≤
                (span.movedBy (byteLength front)).stop := Nat.add_le_add_left ordered _
            rw [around?, if_pos ordered', left', right']
  · cases cut

end RunSigning.Text

namespace RunSigning
open RunSigning.Text RunSigning.Markup

/-- The edit of a text with more text in front. -/
def TextEdit.movedBy (edit : TextEdit) (offset : Nat) : TextEdit :=
  { edit with span := edit.span.movedBy offset }

/-- An edit of a text changes the same part of it if more text stands around. -/
theorem TextEdit.apply_movedBy {edit : TextEdit} {text changed : List Char}
    (applied : edit.apply (String.ofList text) = .ok (String.ofList changed))
    (front behind : List Char) :
    (edit.movedBy (byteLength front)).apply (String.ofList (front ++ (text ++ behind))) =
      .ok (String.ofList (front ++ (changed ++ behind))) := by
  rw [apply, String.toList_ofList] at applied ⊢
  cases cut : around? edit.span text with
  | none =>
      rw [cut] at applied
      cases applied
  | some parts =>
      obtain ⟨first, last⟩ := parts
      rw [cut] at applied
      have whole := congrArg String.toList (Except.ok.inj applied)
      simp only [String.toList_append, String.toList_ofList] at whole
      have span : (edit.movedBy (byteLength front)).span = edit.span.movedBy (byteLength front) :=
        rfl
      rw [span, around?_within cut, ← whole]
      simp [movedBy, String.ofList_append, String.append_assoc]

theorem quoteBefore_within {text first last : List Char} (split : text = first ++ last)
    (filled : first ≠ []) (front behind : List Char) :
    quoteBefore (front ++ (text ++ behind)) (byteLength front + byteLength first) =
      quoteBefore text (byteLength first) := by
  obtain ⟨lead, c, rfl⟩ : ∃ lead c, first = lead ++ [c] :=
    ⟨_, _, (List.dropLast_concat_getLast filled).symm⟩
  have whole := before_append (front ++ (lead ++ [c])) (last ++ behind)
  rw [byteLength_append] at whole
  rw [quoteBefore, quoteBefore, split, before_append, List.append_assoc, ← List.append_assoc front,
    whole, ← List.append_assoc front, List.getLast?_concat, List.getLast?_concat]

theorem lastElement?_map_movedBy (nodes : List Node) (offset : Nat) :
    lastElement? (nodes.map (Node.movedBy offset)) = (lastElement? nodes).map fun found =>
      (found.1.movedBy offset, found.2.map (Node.movedBy offset)) := by
  induction nodes with
  | nil => rfl
  | cons node nodes ih =>
      rw [List.map_cons, lastElement?, lastElement?, Node.element?_movedBy]
      cases node.element? with
      | none => exact ih
      | some element => rfl

theorem indentAfter_map_movedBy (nodes : List Node) (offset : Nat) :
    indentAfter (nodes.map (Node.movedBy offset)) = indentAfter nodes := by
  induction nodes with
  | nil => rfl
  | cons node nodes ih =>
      cases node with
      | element tag children => rw [List.map_cons, Node.movedBy]; rfl
      | text content => rw [List.map_cons, Node.movedBy]; rfl
      | comment content => rw [List.map_cons, Node.movedBy]; exact ih
      | instruction target data => rw [List.map_cons, Node.movedBy]; exact ih

end RunSigning

namespace RunSigning.Markup
open RunSigning.Text

namespace AttributeSource

/-- The attribute up to the place from which its value is taken. The equals sign with the blanks
around it counts up to 255 bytes. -/
def held (attr : AttributeSource) : List Char :=
  attr.lead ++ attr.name.run ++
    (attr.equals ++ [attr.quote]).take (min 255 attr.equals.length + 1)

/-- What stands between that place and the value. -/
def spare (attr : AttributeSource) : List Char :=
  (attr.equals ++ [attr.quote]).drop (min 255 attr.equals.length + 1)

theorem held_append_spare (attr : AttributeSource) : attr.held ++ attr.spare = attr.opening := by
  rw [held, spare, List.append_assoc, List.take_append_drop, opening]
  simp

theorem utf8Size_equals (attr : AttributeSource) :
    ∀ c ∈ attr.equals ++ [attr.quote], c.utf8Size = 1 := by
  have blank {c : Char} (space : isSpace c = true) : c.utf8Size = 1 := by
    simp only [isSpace, Bool.or_eq_true, beq_iff_eq] at space
    rcases space with ((rfl | rfl) | rfl) | rfl <;> rfl
  intro c member
  simp only [equals, List.mem_append, List.mem_cons, List.not_mem_nil, or_false] at member
  rcases member with (before | rfl | after) | rfl
  · exact blank (attr.before_blank c before)
  · rfl
  · exact blank (attr.after_blank c after)
  · rcases attr.quote_fits with equal | equal <;> rw [equal] <;> rfl

/-- The span of a value begins where the equals sign fits no longer, or at the value. -/
theorem valueSpan_eq {attr : AttributeSource} (plain : attr.name.name.IsPlain "value")
    (offset : Nat) :
    (attr.written offset).valueSpan = ⟨offset + byteLength attr.held,
      offset + byteLength attr.opening + byteLength attr.value⟩ := by
  have named := plain.byteLength_run
  have quote := byteLength_quote attr.quote_fits
  have whole := byteLength_eq_length attr.utf8Size_equals
  have equals : byteLength attr.equals = attr.equals.length :=
    byteLength_eq_length fun c member => attr.utf8Size_equals c (List.mem_append_left _ member)
  have taken : byteLength ((attr.equals ++ [attr.quote]).take (min 255 attr.equals.length + 1)) =
      min 255 attr.equals.length + 1 := by
    rw [byteLength_eq_length fun c member => attr.utf8Size_equals c (List.mem_of_mem_take member),
      List.length_take, List.length_append, List.length_singleton]
    omega
  rw [WrittenAttribute.valueSpan]
  simp only [written, held, opening, byteLength_append, quote, taken, Span.mk.injEq, equals]
  omega

end AttributeSource

section
variable {scope : Scope} {element : Element}

/-- The site with more text around it. -/
def Site.within (site : Site [] scope element) (front behind : List Char) :
    Site [] scope (element.movedBy (byteLength front)) where
  front := front ++ site.front
  behind := site.behind ++ behind
  source := site.source
  reading := site.reading
  separated := site.separated
  reads := site.reads
  element_eq := by
    rw [byteLength_append, site.reads.movedBy rfl, site.element_eq]

theorem Site.text_within (site : Site [] scope element) (front behind : List Char) :
    (site.within front behind).text = front ++ (site.text ++ behind) := by
  simp [text, around, within]

/-- The text around the value of an element. -/
theorem Site.text_value {entities : Entities} (site : Site entities scope element)
    {earlier later : List AttributeSource} {attr : AttributeSource}
    (written : site.source.tag.attributes = earlier ++ attr :: later) :
    site.text = (site.front ++ ('<' :: site.source.tag.name.run ++
        earlier.flatMap AttributeSource.render) ++ attr.held) ++ ((attr.spare ++ attr.value) ++
          (attr.quote :: (later.flatMap AttributeSource.render ++ (site.source.tag.gap ++
            (site.source.behindTag ++ site.behind))))) := by
  have opening := attr.held_append_spare
  rw [text, around, site.source.render_eq_tag, TagSource.render, written]
  simp [AttributeSource.render, ← opening]

/-- Where its value begins, the text around an element can be split. -/
theorem Site.exists_front_value {entities : Entities} (site : Site entities scope element)
    {existing : Attribute} (found : element.attribute? "value" = some existing) :
    ∃ first last, site.text = first ++ last ∧ first ≠ [] ∧
      existing.valueSpan.start = byteLength first := by
  obtain ⟨earlier, attr, later, written, plain, -, span⟩ := site.exists_value found
  refine ⟨_, _, site.text_value written, by simp, ?_⟩
  rw [span, attr.valueSpan_eq plain, byteLength_append _ attr.held]

end

end RunSigning.Markup

namespace RunSigning
open RunSigning.Text RunSigning.Markup

section
variable {scope : Scope} {element : Element}

/-- Behind more text a signature is appended by the same edit. -/
theorem Declaration.append_movedBy (site : Site [] scope element) (front behind : List Char)
    (value : String) :
    Declaration.append ⟨element.movedBy (byteLength front)⟩ (front ++ (site.text ++ behind)) value =
      (Declaration.append ⟨element⟩ site.text value).movedBy (byteLength front) := by
  have slice := (site.within front behind).slice_eq
  have name := (site.within front behind).tagNameAt_eq
  rw [site.text_within] at slice name
  have span : (element.movedBy (byteLength front)).tag.span =
      element.tag.span.movedBy (byteLength front) := rfl
  rw [append, append]
  dsimp only
  rw [slice, site.slice_eq, name, site.tagNameAt_eq, span,
    show (site.within front behind).source = site.source from rfl]
  split
  · rename_i closes
    have bracketed : 2 ≤ element.tag.span.stop := by
      rw [endsEmpty] at closes
      rw [site.span_eq]
      cases written : site.source with
      | empty tag =>
          rw [ElementSource.render, byteLength_append]
          exact Nat.le_trans (Nat.le_add_left 2 _) (Nat.le_add_left _ _)
      | filled tag inner ending =>
          rw [written] at closes
          cases closes
    simp only [TextEdit.movedBy, Span.movedBy, Nat.add_sub_assoc bracketed]
  · rw [show (element.movedBy (byteLength front)).children.reverse =
      element.children.reverse.map (Node.movedBy (byteLength front)) from List.map_reverse.symm,
      lastElement?_map_movedBy]
    cases lastElement? element.children.reverse with
    | some found =>
        obtain ⟨last, earlier⟩ := found
        simp only [Option.map_some, indentAfter_map_movedBy]
        rfl
    | none =>
        simp only [Option.map_none]
        cases lastOccurrence? "</".toList site.source.render with
        | some place => simp [TextEdit.insert, TextEdit.movedBy, Span.movedBy, Nat.add_assoc]
        | none => rfl

/-- Behind more text a value is recorded by the same edit. -/
theorem Declaration.record_movedBy (site : Site [] scope element) (front behind : List Char)
    (value : String) :
    Declaration.record ⟨element.movedBy (byteLength front)⟩ (front ++ (site.text ++ behind)) value =
      (Declaration.record ⟨element⟩ site.text value).movedBy (byteLength front) := by
  have found_eq := element.child?_movedBy (byteLength front) "signature"
  cases found : element.child? "signature" with
  | none =>
      rw [found] at found_eq
      rw [record, record, show signature? ⟨element⟩ = none from found,
        show signature? ⟨element.movedBy (byteLength front)⟩ = none from found_eq]
      exact append_movedBy site front behind value
  | some signature =>
      rw [found] at found_eq
      obtain ⟨named, earlier, later, split, others⟩ := element.child?_eq_some found
      obtain ⟨tag, inner, ending, reading, nodes, located, written, matching, -⟩ :=
        site.exists_child split (not_forall_before_nil rfl _)
      have child_text := site.text_ofChild reading located written
      have valued_eq := signature.attribute?_movedBy (byteLength front) "value"
      rw [record, record, show signature? ⟨element⟩ = some signature from found,
        show signature? ⟨element.movedBy (byteLength front)⟩ =
          some (signature.movedBy (byteLength front)) from found_eq]
      dsimp only
      rw [valued_eq]
      cases valued : signature.attribute? "value" with
      | none =>
          have name := ((site.ofChild reading located written).within front behind).tagNameAt_eq
          have name' := (site.ofChild reading located written).tagNameAt_eq
          rw [Site.text_within, child_text] at name
          rw [child_text] at name'
          simp only [Option.map_none]
          rw [name, name']
          simp [TextEdit.insert, TextEdit.movedBy, Span.movedBy, Element.movedBy, Tag.movedBy,
            Site.within, Nat.add_assoc]
      | some existing =>
          obtain ⟨first, last, text_eq, filled, place⟩ :=
            (site.ofChild reading located written).exists_front_value valued
          rw [child_text] at text_eq
          simp only [Option.map_some]
          rw [show (existing.movedBy (byteLength front)).valueSpan =
            existing.valueSpan.movedBy (byteLength front) from rfl]
          simp only [Span.movedBy, TextEdit.movedBy]
          rw [place, quoteBefore_within text_eq filled]

end

end RunSigning

namespace RunSigning.Markup
open RunSigning.Text

/-- What recording a value in an element looks at can be cut out of the text. -/
theorem Site.isPlaced {scope : Scope} {element : Element} (site : Site [] scope element) :
    Declaration.isPlaced ⟨element⟩ site.text = true := by
  rw [Declaration.isPlaced]
  cases found : Declaration.signature? ⟨element⟩ with
  | none =>
      have start : element.tag.span.start = byteLength site.front := site.span_start
      have stop : element.tag.span.stop = byteLength site.front +
          byteLength site.source.render := by
        rw [site.span_eq]
      dsimp only
      rw [text, around, around?_append start stop]
      rfl
  | some signature =>
      dsimp only
      cases valued : signature.attribute? "value" with
      | none => rfl
      | some existing =>
          obtain ⟨-, earlier, later, split, -⟩ := element.child?_eq_some found
          obtain ⟨tag, inner, ending, reading, nodes, located, written, -, -⟩ :=
            site.exists_child split (not_forall_before_nil rfl _)
          obtain ⟨first, last, text_eq, -, place⟩ :=
            (site.ofChild reading located written).exists_front_value valued
          rw [site.text_ofChild reading located written] at text_eq
          rw [Option.all_some, splitAt?_eq_some_iff.mpr ⟨text_eq, place.symm⟩]
          rfl

end RunSigning.Markup
