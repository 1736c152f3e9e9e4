import RunSigning.Proofs.Meaning.Tag

/-
This file says how a builder grows inside an element. It grows by nodes, which join the children
read so far, and the elements around stay as they are.
-/

namespace RunSigning.Markup
open RunSigning.Text

/-- Text at the end of the children waits for more text. -/
def Builder.Joins (builder : Builder) : Prop :=
  ∀ content earlier, builder.siblings = .text content :: earlier → builder.joinsText = true

/-- The builder is inside an element, with no start tag half read. -/
structure Builder.Ready (builder : Builder) (entities : Entities) (scope : Scope)
    (references : Nat) : Prop where
  opened : builder.frames ≠ []
  unbound : builder.bindings = []
  settled : builder.attributes = []
  entities_eq : builder.entities = entities
  scope_eq : builder.scope = scope
  references_eq : builder.references = references
  joins : builder.Joins

/-- The builder has grown by nodes inside its innermost element and by nothing else. -/
structure Builder.GrownBy (builder : Builder) (nodes : List Node) (references : Nat)
    (grown : Builder) : Prop where
  frames_eq : grown.frames = (builder.withSiblings (joinNodes builder.siblings nodes)).frames
  nodes_eq : grown.nodes = builder.nodes
  unbound : grown.bindings = []
  settled : grown.attributes = []
  entities_eq : grown.entities = builder.entities
  references_eq : grown.references = references
  hasDoctype_eq : grown.hasDoctype = builder.hasDoctype
  tagged : builder.tag?.isSome = true → grown.tag?.isSome = true
  joins : grown.Joins

namespace Builder

variable {builder middle grown : Builder} {entities : Entities} {scope : Scope}
  {references between after : Nat} {nodes first second : List Node}

theorem exists_frame (opened : builder.frames ≠ []) :
    ∃ frame outer, builder.frames = frame :: outer :=
  List.exists_cons_of_ne_nil opened

theorem siblings_of_frames {frame : Frame} {outer : List Frame}
    (equal : builder.frames = frame :: outer) : builder.siblings = frame.children := by
  rw [siblings, equal]

theorem frames_withSiblings {frame : Frame} {outer : List Frame}
    (equal : builder.frames = frame :: outer) (siblings : List Node) :
    (builder.withSiblings siblings).frames = { frame with children := siblings } :: outer := by
  rw [withSiblings, equal]

theorem scope_of_frames {frame : Frame} {outer : List Frame}
    (equal : builder.frames = frame :: outer) : builder.scope = frame.scope := by
  rw [scope, equal]

theorem GrownBy.siblings_eq (growth : builder.GrownBy nodes after grown)
    (opened : builder.frames ≠ []) : grown.siblings = joinNodes builder.siblings nodes := by
  obtain ⟨frame, outer, equal⟩ := exists_frame opened
  have frames := growth.frames_eq
  rw [frames_withSiblings equal] at frames
  exact siblings_of_frames frames

theorem GrownBy.opened (growth : builder.GrownBy nodes after grown)
    (opened : builder.frames ≠ []) : grown.frames ≠ [] := by
  obtain ⟨frame, outer, equal⟩ := exists_frame opened
  rw [growth.frames_eq, frames_withSiblings equal]
  exact List.cons_ne_nil _ _

/-- The builder stays ready while it grows. -/
theorem GrownBy.ready (growth : builder.GrownBy nodes after grown)
    (ready : builder.Ready entities scope references) : grown.Ready entities scope after := by
  obtain ⟨frame, outer, equal⟩ := exists_frame ready.opened
  have frames := growth.frames_eq
  rw [frames_withSiblings equal] at frames
  refine ⟨growth.opened ready.opened, growth.unbound, growth.settled,
    growth.entities_eq.trans ready.entities_eq, ?_, growth.references_eq, growth.joins⟩
  rw [scope_of_frames frames, ← ready.scope_eq, scope_of_frames equal]

theorem GrownBy.refl (ready : builder.Ready entities scope references) :
    builder.GrownBy [] references builder := by
  obtain ⟨frame, outer, equal⟩ := exists_frame ready.opened
  refine ⟨?_, rfl, ready.unbound, ready.settled, rfl, ready.references_eq, rfl, id, ready.joins⟩
  rw [joinNodes_nil, frames_withSiblings equal, siblings_of_frames equal, equal]

theorem GrownBy.trans (opened : builder.frames ≠ [])
    (one : builder.GrownBy first between middle) (two : middle.GrownBy second after grown) :
    builder.GrownBy (first ++ second) after grown := by
  obtain ⟨frame, outer, equal⟩ := exists_frame opened
  have frames := one.frames_eq
  rw [frames_withSiblings equal] at frames
  refine ⟨?_, two.nodes_eq.trans one.nodes_eq, two.unbound, two.settled,
    two.entities_eq.trans one.entities_eq, two.references_eq,
    two.hasDoctype_eq.trans one.hasDoctype_eq, two.tagged ∘ one.tagged, two.joins⟩
  rw [two.frames_eq, one.siblings_eq opened, frames_withSiblings frames,
    frames_withSiblings equal, joinNodes_append]

theorem frames_joined (frames : middle.frames = builder.frames)
    (outside : middle.nodes = builder.nodes) :
    (middle.withSiblings (joinNodes middle.siblings nodes)).frames =
      (builder.withSiblings (joinNodes builder.siblings nodes)).frames := by
  rw [withSiblings, withSiblings, siblings, siblings, frames, outside]
  split <;> first | exact frames | rfl

/-- What is open and what is declared matters for the growth, and nothing else. -/
theorem GrownBy.of_frames_eq (growth : middle.GrownBy nodes after grown)
    (frames : middle.frames = builder.frames) (outside : middle.nodes = builder.nodes)
    (declared : middle.entities = builder.entities)
    (doctype : middle.hasDoctype = builder.hasDoctype)
    (tagged : builder.tag?.isSome = true → middle.tag?.isSome = true) :
    builder.GrownBy nodes after grown :=
  ⟨growth.frames_eq.trans (frames_joined frames outside), growth.nodes_eq.trans outside,
    growth.unbound, growth.settled, growth.entities_eq.trans declared, growth.references_eq,
    growth.hasDoctype_eq.trans doctype, growth.tagged ∘ tagged, growth.joins⟩

theorem siblings_addNode {node : Node} :
    (builder.addNode node).siblings = node :: builder.siblings := by
  rw [addNode, withSiblings]
  cases equal : builder.frames <;> simp [siblings, equal]

theorem joins_addNode {node : Node} (apart : node.isText = false) :
    (builder.addNode node).Joins := by
  intro content earlier equal
  rw [siblings_addNode] at equal
  obtain ⟨rfl, -⟩ := List.cons.inj equal
  cases apart

theorem addNode_grows {node : Node} (apart : node.isText = false)
    (opened : builder.frames ≠ []) (unbound : builder.bindings = [])
    (settled : builder.attributes = []) :
    builder.GrownBy [node] builder.references (builder.addNode node) := by
  obtain ⟨frame, outer, equal⟩ := exists_frame opened
  have joined : joinNodes builder.siblings [node] = node :: builder.siblings :=
    joinNode_of_not_isText apart _
  have grown : builder.addNode node =
      { builder with frames := { frame with children := node :: builder.siblings } :: outer } := by
    rw [addNode, withSiblings, equal]
  refine ⟨?_, ?_, ?_, ?_, ?_, ?_, ?_, ?_, joins_addNode apart⟩
  · rw [joined]
    rfl
  all_goals rw [grown]
  · exact unbound
  · exact settled
  · exact id

theorem Ready.addNode_grows (ready : builder.Ready entities scope references) {node : Node}
    (apart : node.isText = false) : builder.GrownBy [node] references (builder.addNode node) := by
  have growth := Builder.addNode_grows apart ready.opened ready.unbound ready.settled
  rw [ready.references_eq] at growth
  exact growth

theorem Ready.addText_grows (ready : builder.Ready entities scope references)
    (text : List Char) :
    builder.GrownBy [.text (String.ofList text)] references (builder.addText text) := by
  obtain ⟨frame, outer, equal⟩ := exists_frame ready.opened
  have grown : builder.addText text =
      { builder with
        joinsText := true
        frames := { frame with
          children := joinNode builder.siblings (.text (String.ofList text)) } :: outer } := by
    rw [addText]
    split
    · rename_i content earlier joining siblings
      rw [withSiblings]
      simp only [equal, siblings]
      rfl
    · rename_i apart
      have alone : joinNode builder.siblings (.text (String.ofList text)) =
          .text (String.ofList text) :: builder.siblings := by
        cases last : builder.siblings with
        | nil => rfl
        | cons node earlier =>
            cases node with
            | text content => exact absurd (ready.joins content earlier last) (apart _ _ · last)
            | element tag children => rfl
            | comment content => rfl
            | instruction target data => rfl
      rw [withSiblings]
      simp only [equal, alone]
  refine ⟨?_, ?_, ?_, ?_, ?_, ?_, ?_, ?_, ?_⟩
  all_goals rw [grown]
  · rw [frames_withSiblings equal]
    rfl
  · exact ready.unbound
  · exact ready.settled
  · exact ready.references_eq
  · exact id
  · intro _ _ _
    rfl

end Builder

end RunSigning.Markup
