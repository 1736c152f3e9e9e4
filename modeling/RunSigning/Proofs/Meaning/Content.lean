import RunSigning.Proofs.Meaning.Growth

/-
This file says what content means. The reading of content gives the nodes that it stands for at
every offset, and the builder grows by exactly these nodes.
-/

namespace RunSigning.Markup
open RunSigning.Text

/-- All replacement texts end at or before an offset. -/
def Entities.Before (entities : Entities) (bound : Nat) : Prop :=
  ∀ pair ∈ entities, pair.2.offset + byteLength pair.2.rest ≤ bound

/-- The texts among nodes hold only characters that a document may hold. -/
def AllowedTexts (nodes : List Node) : Prop :=
  ∀ content, .text content ∈ nodes → ∀ c ∈ content.toList, isAllowed c = true

/-- A run of text stands for the same nodes wherever it is read. -/
structure TextReads (entities : Entities) (room : Nat) (scope : Scope) (references : Nat)
    (run : List Char) (nodes : List Node) (after : Nat) : Prop where
  grows : ∀ (offset : Nat) (builder : Builder), builder.Ready entities scope references →
    ∃ grown, builder.add room (Builder.follow room) (.text ⟨offset, run⟩) = .ok grown ∧
      builder.GrownBy nodes after grown
  allowed : AllowedTexts nodes
  before : ∀ bound, entities.Before bound →
    ∀ element ∈ elements nodes, element.tag.span.start < bound

/-- Two names have the same parts. -/
def QualifiedName.Matches (first second : QualifiedName) : Prop :=
  first.qualifier = second.qualifier ∧ first.localName = second.localName

/-- What the start tag says if it begins at an offset and its element has the given length. -/
def TagSource.Reading.tag {source : TagSource} {entities : Entities} {room : Nat}
    {scope : Scope} {references : Nat} (reading : source.Reading entities room scope references)
    (offset length : Nat) (selfClosing : Bool) : Tag :=
  ⟨source.name.name, reading.uri?, reading.attributes offset, ⟨offset, offset + length⟩,
    selfClosing⟩

/-- Content is read in a scope, after a count of references. The nodes depend on the offset at
which it begins. -/
inductive Content.Reads (entities : Entities) (room : Nat) :
    Scope → Nat → Content → (Nat → List Node) → Nat → Prop where
  | nil (scope : Scope) (references : Nat) :
      Reads entities room scope references .nil (fun _ => []) references
  | text {scope : Scope} {references between after : Nat} {run : List Char}
      {fits : Reader.IsTextRun run} {rest : Content} {nodes : List Node}
      {more : Nat → List Node}
      (reads : TextReads entities room scope references run nodes between)
      (later : Reads entities room scope between rest more after) :
      Reads entities room scope references (.text run fits rest)
        (fun offset => nodes ++ more (offset + byteLength run)) after
  | marked {scope : Scope} {references after : Nat} {source : SectionSource} {rest : Content}
      {more : Nat → List Node} (later : Reads entities room scope references rest more after) :
      Reads entities room scope references (.marked source rest)
        (fun offset => .text (String.ofList (foldLineBreaks source.text)) ::
          more (offset + byteLength source.render)) after
  | aside {scope : Scope} {references after : Nat} {source : AsideSource} {rest : Content}
      {more : Nat → List Node} (later : Reads entities room scope references rest more after) :
      Reads entities room scope references (.aside source rest)
        (fun offset => source.node :: more (offset + byteLength source.render)) after
  | empty {scope : Scope} {references after : Nat} {tag : TagSource} {rest : Content}
      {more : Nat → List Node} (reading : tag.Reading entities room scope references)
      (later : Reads entities room scope reading.after rest more after) :
      Reads entities room scope references (.empty tag rest)
        (fun offset =>
          .element (reading.tag offset (byteLength (tag.render ++ closing true)) true) [] ::
            more (offset + byteLength (tag.render ++ closing true))) after
  | filled {scope : Scope} {references between after : Nat} {tag : TagSource}
      {inner rest : Content} {ending : EndSource} {nodes more : Nat → List Node}
      (reading : tag.Reading entities room scope references)
      (inside : Reads entities room reading.inner reading.after inner nodes between)
      (matching : ending.name.name.Matches tag.name.name)
      (later : Reads entities room scope between rest more after) :
      Reads entities room scope references (.filled tag inner ending rest)
        (fun offset =>
          .element (reading.tag offset (byteLength (filledRender tag inner.render ending)) false)
              (joinNodes []
                (nodes (offset + byteLength (tag.render ++ closing false)))).reverse ::
            more (offset + byteLength (filledRender tag inner.render ending))) after

section
variable {entities : Entities} {room : Nat} {scope : Scope} {references : Nat}
  {builder changed : Builder} {source : TagSource} {offset : Nat} {selfClosing : Bool}

theorem Builder.Ready.addTokens_tag_iff (ready : builder.Ready entities scope references) :
    builder.addTokens room (source.tokens offset selfClosing) = .ok changed ↔
      ∃ reading : source.Reading entities room scope references,
        changed = builder.afterTag reading offset selfClosing := by
  obtain ⟨-, unbound, settled, rfl, rfl, rfl, -⟩ := ready
  exact Builder.addTokens_tag_iff unbound settled

/-- Behind a start tag the builder is inside its element, also if nothing was open before. -/
theorem Builder.ready_afterTag (declared : builder.entities = entities)
    (reading : source.Reading entities room scope references) :
    (builder.afterTag reading offset false).Ready entities reading.inner reading.after := by
  refine ⟨List.cons_ne_nil _ _, rfl, rfl, declared, rfl, rfl, ?_⟩
  intro content earlier equal
  cases equal

theorem Builder.Ready.afterTag (ready : builder.Ready entities scope references)
    (reading : source.Reading entities room scope references) :
    (builder.afterTag reading offset false).Ready entities reading.inner reading.after :=
  Builder.ready_afterTag ready.entities_eq reading

/-- A tag that closes itself adds an element without children. -/
theorem Builder.Ready.empty_grows (ready : builder.Ready entities scope references)
    (reading : source.Reading entities room scope references) (offset : Nat) :
    builder.GrownBy
      [.element (reading.tag offset (byteLength (source.render ++ closing true)) true) []]
      reading.after (builder.afterTag reading offset true) := by
  have apart : Node.isText (.element (reading.tag offset
      (byteLength (source.render ++ closing true)) true) []) = false := rfl
  have growth : Builder.GrownBy { builder with
      tag? := some (source.name.name, offset)
      bindings := []
      attributes := []
      references := reading.after
      joinsText := false } _ _ _ :=
    Builder.addNode_grows apart ready.opened rfl rfl
  exact growth.of_frames_eq rfl rfl rfl rfl fun _ => rfl

theorem Builder.add_endTag_iff {frame : Frame} {outer : List Frame} {name : QualifiedName}
    {span : Span} {closed : Builder} (frames : builder.frames = frame :: outer)
    (settled : builder.attributes = []) (tagged : builder.tag?.isSome = true) :
    builder.add room (Builder.follow room) (.endTag name span) = .ok closed ↔
      name.Matches frame.name ∧
        closed = Builder.addNode
          { builder with bindings := [], attributes := [], frames := outer }
          (.element ⟨frame.name, frame.uri?, frame.attributes, ⟨frame.start, span.stop⟩, false⟩
            frame.children.reverse) := by
  obtain ⟨tag, found⟩ := Option.isSome_iff_exists.mp tagged
  rw [Builder.add, Builder.endElement, found]
  simp only [bind_eq_ok_iff, settled, Scope.resolveAttributes, Except.ok.injEq, exists_eq_left',
    Builder.closeElement, frames, QualifiedName.Matches]
  split
  · rename_i matching
    rw [iff_true_intro matching, true_and, Except.ok.injEq, eq_comm]
  · rename_i different
    rw [iff_false_intro different, false_and]
    simp

theorem AsideSource.isText_node (source : AsideSource) : source.node.isText = false := by
  cases source <;> rfl

theorem AsideSource.add_token (source : AsideSource) :
    builder.add room (Builder.follow room) source.token = .ok (builder.addNode source.node) := by
  cases source <;> rfl

section
variable {name : QualifiedName} {nodes : List Node} {between : Nat} {closed : Builder}

/-- An end tag closes the innermost element if it repeats its name. -/
theorem Builder.Ready.closes_iff {reading : source.Reading entities room scope references}
    (inside : (builder.afterTag reading offset false).GrownBy nodes between changed)
    (span : Span) :
    (∃ closed, changed.add room (Builder.follow room) (.endTag name span) = .ok closed) ↔
      name.Matches source.name.name := by
  have frames := inside.frames_eq
  rw [Builder.frames_withSiblings rfl] at frames
  simp only [Builder.add_endTag_iff frames inside.settled (inside.tagged rfl)]
  simp

/-- The end tag of an element adds it with the children read in between. -/
theorem Builder.Ready.filled_grows (ready : builder.Ready entities scope references)
    {reading : source.Reading entities room scope references}
    (inside : (builder.afterTag reading offset false).GrownBy nodes between changed)
    {place length : Nat}
    (closes : changed.add room (Builder.follow room) (.endTag name ⟨place, offset + length⟩) =
      .ok closed) :
    builder.GrownBy [.element (reading.tag offset length false) (joinNodes [] nodes).reverse]
      between closed := by
  have frames := inside.frames_eq
  rw [Builder.frames_withSiblings rfl] at frames
  rw [Builder.add_endTag_iff frames inside.settled (inside.tagged rfl)] at closes
  obtain ⟨-, rfl⟩ := closes
  have apart : Node.isText (.element (reading.tag offset length false)
      (joinNodes [] nodes).reverse) = false := rfl
  have growth : Builder.GrownBy { changed with
      bindings := []
      attributes := []
      frames := builder.frames } _ _ _ :=
    Builder.addNode_grows apart ready.opened rfl rfl
  have references_eq := inside.references_eq
  subst references_eq
  exact growth.of_frames_eq rfl inside.nodes_eq inside.entities_eq inside.hasDoctype_eq
    fun _ => inside.tagged rfl

end

end

theorem AllowedTexts.append {first second : List Node} (one : AllowedTexts first)
    (two : AllowedTexts second) : AllowedTexts (first ++ second) := by
  intro content member
  rcases List.mem_append.mp member with left | right
  · exact one content left
  · exact two content right

/-- Folding line breaks brings in line feeds, and nothing else. -/
theorem mem_foldLineBreaks {text : List Char} {c : Char} (member : c ∈ foldLineBreaks text) :
    c = '\n' ∨ c ∈ text := by
  induction text using foldLineBreaks.induct with
  | case1 rest ih =>
      rw [foldLineBreaks] at member
      rcases List.mem_cons.mp member with feed | later
      · exact .inl feed
      · exact (ih later).imp_right fun held => by simp [held]
  | case2 rest other ih =>
      rw [foldLineBreaks] at member
      · rcases List.mem_cons.mp member with feed | later
        · exact .inl feed
        · exact (ih later).imp_right fun held => by simp [held]
      · exact other
  | case3 d rest other other' ih =>
      rw [foldLineBreaks] at member
      · rcases List.mem_cons.mp member with rfl | later
        · exact .inr (by simp)
        · exact (ih later).imp_right fun held => by simp [held]
      · exact other
      · exact other'
  | case4 => cases member

theorem SectionSource.allowed (source : SectionSource) :
    ∀ c ∈ source.text, isAllowed c = true := by
  obtain ⟨text, -, allowed, -, equal⟩ := Reader.takes_markedSection_iff.mp (source.reads 0 [])
  rw [Token.verbatim.inj equal]
  exact allowed

theorem TagSource.byteLength_render_pos (source : TagSource) : 0 < byteLength source.render := by
  obtain ⟨c, rest, equal, -⟩ := source.exists_render
  have := Char.utf8Size_pos '<'
  rw [equal, byteLength_cons]
  omega

namespace Content.Reads

variable {entities : Entities} {room : Nat} {scope : Scope} {references after : Nat}
  {content : Content} {nodes : Nat → List Node}

/-- A builder that is ready grows by the nodes of the content, wherever it begins. -/
theorem grows (reads : content.Reads entities room scope references nodes after)
    (offset : Nat) {builder : Builder} (ready : builder.Ready entities scope references) :
    ∃ grown, builder.addTokens room (content.tokens offset) = .ok grown ∧
      builder.GrownBy (nodes offset) after grown := by
  induction reads generalizing offset builder with
  | nil scope references =>
      exact ⟨builder, Builder.addTokens_nil_eq_ok_iff.mpr rfl, .refl ready⟩
  | text reads later ih =>
      obtain ⟨middle, one, growth⟩ := reads.grows offset builder ready
      obtain ⟨grown, two, growth'⟩ := ih _ (growth.ready ready)
      exact ⟨grown, Builder.addTokens_cons_eq_ok_iff.mpr ⟨middle, one, two⟩,
        growth.trans ready.opened growth'⟩
  | @marked scope references after source rest more later ih =>
      have growth := ready.addText_grows (foldLineBreaks source.text)
      obtain ⟨grown, two, growth'⟩ := ih _ (growth.ready ready)
      exact ⟨grown, Builder.addTokens_cons_eq_ok_iff.mpr ⟨_, rfl, two⟩,
        growth.trans ready.opened growth'⟩
  | @aside scope references after source rest more later ih =>
      have growth := ready.addNode_grows source.isText_node
      obtain ⟨grown, two, growth'⟩ := ih _ (growth.ready ready)
      exact ⟨grown, Builder.addTokens_cons_eq_ok_iff.mpr ⟨_, source.add_token, two⟩,
        growth.trans ready.opened growth'⟩
  | @empty scope references after tag rest more reading later ih =>
      have growth := ready.empty_grows reading offset
      obtain ⟨grown, two, growth'⟩ := ih _ (growth.ready ready)
      exact ⟨grown, Builder.addTokens_append_eq_ok_iff.mpr
        ⟨_, ready.addTokens_tag_iff.mpr ⟨reading, rfl⟩, two⟩, growth.trans ready.opened growth'⟩
  | @filled scope references between after tag inner rest ending nodes more reading inside
      matching later innerIh ih =>
      obtain ⟨filled, reads, growth⟩ := innerIh
        (offset + byteLength (tag.render ++ closing false)) (ready.afterTag reading)
      obtain ⟨closed, closes⟩ := (Builder.Ready.closes_iff growth
        ⟨offset + byteLength (tag.render ++ closing false) + byteLength inner.render,
          offset + byteLength (filledRender tag inner.render ending)⟩).mpr matching
      have growth' := ready.filled_grows growth closes
      obtain ⟨grown, two, growth''⟩ := ih _ (growth'.ready ready)
      refine ⟨grown, ?_, growth'.trans ready.opened growth''⟩
      rw [tokens, List.append_assoc, Builder.addTokens_append_eq_ok_iff]
      refine ⟨_, ready.addTokens_tag_iff.mpr ⟨reading, rfl⟩, ?_⟩
      rw [Builder.addTokens_append_eq_ok_iff]
      exact ⟨filled, reads, Builder.addTokens_cons_eq_ok_iff.mpr ⟨closed, closes, two⟩⟩

theorem grownBy (reads : content.Reads entities room scope references nodes after) {offset : Nat}
    {builder grown : Builder} (ready : builder.Ready entities scope references)
    (success : builder.addTokens room (content.tokens offset) = .ok grown) :
    builder.GrownBy (nodes offset) after grown := by
  obtain ⟨grown', success', growth⟩ := reads.grows offset ready
  rw [success] at success'
  obtain rfl := Except.ok.inj success'
  exact growth

/-- The shapes of the nodes do not depend on where the content begins. -/
theorem shape_eq (reads : content.Reads entities room scope references nodes after)
    (offset offset' : Nat) :
    (nodes offset).map Node.shape = (nodes offset').map Node.shape := by
  induction reads generalizing offset offset' with
  | nil scope references => rfl
  | text reads later ih => rw [List.map_append, List.map_append, ih]
  | marked later ih => rw [List.map_cons, List.map_cons, ih]
  | aside later ih => rw [List.map_cons, List.map_cons, ih]
  | empty reading later ih =>
      rw [List.map_cons, List.map_cons]
      refine congrArg₂ List.cons ?_ (ih _ _)
      rw [Node.shape, Node.shape]
      simp only [TagSource.Reading.tag, reading.map_shape_attributes]
  | @filled scope references between after tag inner rest ending nodes more reading inside
      matching later innerIh ih =>
      have children := @joinNodes_shape [] [] _ _ rfl (innerIh
        (offset + byteLength (tag.render ++ closing false))
        (offset' + byteLength (tag.render ++ closing false)))
      rw [List.map_cons, List.map_cons]
      refine congrArg₂ List.cons ?_ (ih _ _)
      rw [Node.shape, Node.shape]
      simp only [TagSource.Reading.tag, reading.map_shape_attributes, List.map_reverse, children]

/-- The texts in the nodes hold only characters that a document may hold. -/
theorem allowed (reads : content.Reads entities room scope references nodes after)
    (offset : Nat) : AllowedTexts (nodes offset) := by
  induction reads generalizing offset with
  | nil scope references => simp [AllowedTexts]
  | text reads later ih => exact reads.allowed.append (ih _)
  | @marked scope references after source rest more later ih =>
      intro content member
      rcases List.mem_cons.mp member with equal | member
      · obtain rfl := Node.text.inj equal
        intro c held
        rw [String.toList_ofList] at held
        rcases mem_foldLineBreaks held with rfl | written
        · decide
        · exact source.allowed c written
      · exact ih _ content member
  | @aside scope references after source rest more later ih =>
      intro content member
      rcases List.mem_cons.mp member with equal | member
      · have apart := source.isText_node
        rw [← equal] at apart
        cases apart
      · exact ih _ content member
  | empty reading later ih =>
      intro content member
      rcases List.mem_cons.mp member with equal | member
      · cases equal
      · exact ih _ content member
  | filled reading inside matching later innerIh ih =>
      intro content member
      rcases List.mem_cons.mp member with equal | member
      · cases equal
      · exact ih _ content member

/-- The elements begin before the end of the content or of some replacement text. -/
theorem before (reads : content.Reads entities room scope references nodes after)
    {offset bound : Nat} (declared : entities.Before bound)
    (fits : offset + byteLength content.render ≤ bound) :
    ∀ element ∈ elements (nodes offset), element.tag.span.start < bound := by
  induction reads generalizing offset with
  | nil scope references => simp
  | text reads later ih =>
      rw [elements_append]
      intro element member
      rcases List.mem_append.mp member with first | last
      · exact reads.before bound declared element first
      · exact ih (by simpa [render, Nat.add_assoc] using fits) element last
  | marked later ih => exact ih (by simpa [render, Nat.add_assoc] using fits)
  | @aside scope references after source rest more later ih =>
      intro element member
      have later : element ∈ elements (more (offset + byteLength source.render)) := by
        cases source <;> exact member
      exact ih (by simpa [render, Nat.add_assoc] using fits) element later
  | @empty scope references after tag rest more reading later ih =>
      intro element member
      rcases List.mem_cons.mp member with rfl | last
      · have := tag.byteLength_render_pos
        simp only [render, byteLength_append] at fits
        simp only [TagSource.Reading.tag]
        omega
      · exact ih (by simpa [render, Nat.add_assoc] using fits) element last
  | @filled scope references between after tag inner rest ending nodes more reading inside
      matching later innerIh ih =>
      intro element member
      rcases List.mem_cons.mp member with rfl | last
      · have := tag.byteLength_render_pos
        simp only [render, filledRender, byteLength_append] at fits
        simp only [TagSource.Reading.tag]
        omega
      · exact ih (by simpa [render, Nat.add_assoc] using fits) element last

end Content.Reads

/-- Every run of text that the builder accepts has a reading. -/
def ReadsTexts (entities : Entities) (room : Nat) : Prop :=
  ∀ (run : List Char) (scope : Scope) (references offset : Nat) (builder grown : Builder),
    Reader.IsTextRun run → builder.Ready entities scope references →
      builder.add room (Builder.follow room) (.text ⟨offset, run⟩) = .ok grown →
        ∃ nodes after, TextReads entities room scope references run nodes after

/-- Content that the builder accepts has a reading. -/
theorem Content.exists_reads {entities : Entities} {room : Nat}
    (texts : ReadsTexts entities room) (content : Content) {scope : Scope}
    {references offset : Nat} {builder grown : Builder}
    (ready : builder.Ready entities scope references)
    (success : builder.addTokens room (content.tokens offset) = .ok grown) :
    ∃ nodes after, content.Reads entities room scope references nodes after := by
  induction content generalizing scope references offset builder grown with
  | nil => exact ⟨_, _, .nil scope references⟩
  | text run fits rest ih =>
      rw [tokens, Builder.addTokens_cons_eq_ok_iff] at success
      obtain ⟨middle, one, two⟩ := success
      obtain ⟨first, between, reads⟩ := texts _ _ _ _ _ _ fits ready one
      obtain ⟨middle', one', growth⟩ := reads.grows offset builder ready
      rw [one] at one'
      obtain rfl := Except.ok.inj one'
      obtain ⟨more, after, later⟩ := ih (growth.ready ready) two
      exact ⟨_, _, .text reads later⟩
  | marked source rest ih =>
      rw [tokens, Builder.addTokens_cons_eq_ok_iff] at success
      obtain ⟨middle, one, two⟩ := success
      obtain rfl := Except.ok.inj one
      obtain ⟨more, after, later⟩ := ih ((ready.addText_grows _).ready ready) two
      exact ⟨_, _, .marked later⟩
  | aside source rest ih =>
      rw [tokens, Builder.addTokens_cons_eq_ok_iff, source.add_token] at success
      obtain ⟨middle, one, two⟩ := success
      obtain rfl := Except.ok.inj one
      obtain ⟨more, after, later⟩ := ih ((ready.addNode_grows source.isText_node).ready ready) two
      exact ⟨_, _, .aside later⟩
  | empty tag rest ih =>
      rw [tokens, Builder.addTokens_append_eq_ok_iff] at success
      obtain ⟨middle, one, two⟩ := success
      obtain ⟨reading, rfl⟩ := ready.addTokens_tag_iff.mp one
      obtain ⟨more, after, later⟩ := ih ((ready.empty_grows reading offset).ready ready) two
      exact ⟨_, _, .empty reading later⟩
  | filled tag inner ending rest innerIh ih =>
      rw [tokens, List.append_assoc, Builder.addTokens_append_eq_ok_iff] at success
      obtain ⟨opened, one, success⟩ := success
      rw [Builder.addTokens_append_eq_ok_iff] at success
      obtain ⟨filled, two, success⟩ := success
      rw [Builder.addTokens_cons_eq_ok_iff] at success
      obtain ⟨closed, closes, three⟩ := success
      obtain ⟨reading, rfl⟩ := ready.addTokens_tag_iff.mp one
      obtain ⟨nodes, between, inside⟩ := innerIh (ready.afterTag reading) two
      have growth := inside.grownBy (ready.afterTag reading) two
      have matching := (Builder.Ready.closes_iff growth _).mp ⟨closed, closes⟩
      obtain ⟨more, after, later⟩ := ih ((ready.filled_grows growth closes).ready ready) three
      exact ⟨_, _, .filled reading inside matching later⟩

end RunSigning.Markup
