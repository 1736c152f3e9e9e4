import RunSigning.Proofs.Grammar.Source
import RunSigning.Proofs.Meaning.Element

/-
This file says which tree a document spells. The tree of a written document is read off its prolog,
its root element and its epilog, and every tree that a text spells is the tree of a written one.
-/

namespace RunSigning.Markup
open RunSigning.Text

/-- The builder after tokens that stand outside the root element. -/
def Builder.passed (builder : Builder) (tokens : List Token) : Builder :=
  { builder with
    nodes := (tokens.filterMap Token.node?).reverse ++ builder.nodes
    entities := builder.entities ++ tokens.filterMap Token.entity?
    hasDoctype := builder.hasDoctype || decide (.doctype ∈ tokens) }

/-- Outside the root element every token is accepted. -/
theorem Builder.addTokens_outside {room : Nat} {builder : Builder} (outermost : builder.frames = [])
    {tokens : List Token} (outside : ∀ token ∈ tokens, token.IsOutside) :
    builder.addTokens room tokens = .ok (builder.passed tokens) := by
  induction tokens generalizing builder with
  | nil => simp [addTokens_nil_eq_ok_iff, passed]
  | cons token tokens ih =>
      obtain ⟨first, later⟩ := List.forall_mem_cons.mp outside
      cases first with
      | doctype =>
          refine addTokens_cons_eq_ok_iff.mpr ⟨_, rfl, Eq.trans (ih ?_ later) ?_⟩
          · exact outermost
          simp [passed, List.filterMap_cons, Token.node?, Token.entity?]
      | entity name replacement =>
          refine addTokens_cons_eq_ok_iff.mpr ⟨_, rfl, Eq.trans (ih ?_ later) ?_⟩
          · exact outermost
          simp [passed, List.filterMap_cons, Token.node?, Token.entity?]
      | aside source =>
          have added : (builder.addNode source.node).frames = [] := by
            rw [addNode, withSiblings, outermost]
          refine addTokens_cons_eq_ok_iff.mpr ⟨_, source.add_token, Eq.trans (ih added later) ?_⟩
          cases source <;> simp [passed, addNode, withSiblings, siblings, outermost, Token.node?,
            Token.entity?, AsideSource.token, AsideSource.node, List.filterMap_cons]

/-- The builder stands outside the root element, with no start tag half read. -/
structure Builder.Outermost (builder : Builder) (entities : Entities) : Prop where
  frames_eq : builder.frames = []
  unbound : builder.bindings = []
  settled : builder.attributes = []
  entities_eq : builder.entities = entities
  references_eq : builder.references = 0

section
variable {entities : Entities} {room after : Nat} {builder changed : Builder}
  {source : ElementSource}

theorem Builder.Outermost.addTokens_tag_iff {tag : TagSource} {offset : Nat} {selfClosing : Bool}
    (outermost : builder.Outermost entities) :
    builder.addTokens room (tag.tokens offset selfClosing) = .ok changed ↔
      ∃ reading : tag.Reading entities room [] 0,
        changed = builder.afterTag reading offset selfClosing := by
  have scope : builder.scope = [] := by
    rw [Builder.scope, outermost.frames_eq]
  have whole := @Builder.addTokens_tag_iff room offset builder changed tag selfClosing
    outermost.unbound outermost.settled
  rw [scope, outermost.entities_eq, outermost.references_eq] at whole
  exact whole

/-- The end tag of the root element adds it with the children read in between. -/
theorem Builder.Outermost.closes_iff {tag : TagSource} {reading : tag.Reading entities room [] 0}
    {nodes : List Node} {offset length place : Nat} {name : QualifiedName} {filled : Builder}
    (outermost : builder.Outermost entities)
    (growth : (builder.afterTag reading offset false).GrownBy nodes after filled) :
    filled.add room (Builder.follow room) (.endTag name ⟨place, offset + length⟩) = .ok changed ↔
      name.Matches tag.name.name ∧ changed = { filled with
        bindings := []
        attributes := []
        frames := []
        nodes := .element (reading.tag offset length false) (joinNodes [] nodes).reverse ::
          builder.nodes } := by
  have frames := growth.frames_eq
  have nodes_eq : filled.nodes = builder.nodes := growth.nodes_eq
  rw [Builder.frames_withSiblings rfl] at frames
  rw [Builder.add_endTag_iff frames growth.settled (growth.tagged rfl), Builder.addNode,
    Builder.withSiblings, Builder.siblings]
  simp only [outermost.frames_eq, nodes_eq]
  rfl

/-- The root element is added as it is read. -/
theorem ElementSource.Reads.adds_root {reading : Nat → Element}
    (reads : source.Reads entities room [] 0 reading after)
    (outermost : builder.Outermost entities) (offset : Nat) :
    ∃ changed, builder.addTokens room (source.tokens offset) = .ok changed ∧
      changed.frames = [] ∧ changed.nodes = (reading offset).node :: builder.nodes ∧
      changed.hasDoctype = builder.hasDoctype := by
  cases reads with
  | empty reading =>
      refine ⟨_, outermost.addTokens_tag_iff.mpr ⟨reading, rfl⟩, ?_⟩
      simp [Builder.afterTag, Builder.addNode, Builder.withSiblings, Builder.siblings,
        outermost.frames_eq, Element.node, TagSource.Reading.tag]
  | @filled tag inner ending nodes after reading inside matching =>
      have ready := @Builder.ready_afterTag entities room [] 0 builder tag offset
        outermost.entities_eq reading
      obtain ⟨filled, reads, growth⟩ :=
        inside.grows (offset + byteLength (tag.render ++ closing false)) ready
      have closes {closed : Builder}
          (closes : filled.add room (Builder.follow room) (.endTag ending.name.name
            ⟨offset + byteLength (tag.render ++ closing false) + byteLength inner.render,
              offset + byteLength (filledRender tag inner.render ending)⟩) = .ok closed) :
          builder.addTokens room ((ElementSource.filled tag inner ending).tokens offset) =
            .ok closed := by
        rw [tokens, List.append_assoc, Builder.addTokens_append_eq_ok_iff]
        refine ⟨_, outermost.addTokens_tag_iff.mpr ⟨reading, rfl⟩, ?_⟩
        rw [Builder.addTokens_append_eq_ok_iff]
        exact ⟨filled, reads, by rwa [Builder.addTokens_singleton]⟩
      exact ⟨_, closes ((outermost.closes_iff growth).mpr ⟨matching, rfl⟩), rfl, rfl,
        growth.hasDoctype_eq⟩

/-- A root element that the builder accepts has a reading. -/
theorem ElementSource.exists_reads (texts : ReadsTexts entities room)
    (outermost : builder.Outermost entities) {offset : Nat}
    (success : builder.addTokens room (source.tokens offset) = .ok changed) :
    ∃ reading after, source.Reads entities room [] 0 reading after := by
  cases source with
  | empty tag =>
      obtain ⟨reading, -⟩ := outermost.addTokens_tag_iff.mp success
      exact ⟨_, _, .empty reading⟩
  | filled tag inner ending =>
      rw [tokens, List.append_assoc, Builder.addTokens_append_eq_ok_iff] at success
      obtain ⟨opened, one, success⟩ := success
      rw [Builder.addTokens_append_eq_ok_iff] at success
      obtain ⟨filled, two, success⟩ := success
      rw [Builder.addTokens_singleton] at success
      obtain ⟨reading, rfl⟩ := outermost.addTokens_tag_iff.mp one
      have ready := @Builder.ready_afterTag entities room [] 0 builder tag offset
        outermost.entities_eq reading
      obtain ⟨nodes, after, inside⟩ := inner.exists_reads texts ready two
      have matching := ((outermost.closes_iff (inside.grownBy ready two)).mp success).1
      exact ⟨_, _, .filled reading inside matching⟩

/-- An element that is never closed stays open. -/
theorem OpenTail.stays_open {scope : Scope} {references offset : Nat} {tail : List Token}
    (texts : ReadsTexts entities room) (tail_open : OpenTail offset tail)
    (ready : builder.Ready entities scope references)
    (success : builder.addTokens room tail = .ok changed) : changed.frames ≠ [] := by
  induction tail_open generalizing builder scope references with
  | ended offset =>
      obtain rfl := Builder.addTokens_nil_eq_ok_iff.mp success
      exact ready.opened
  | broken offset name attributes =>
      rw [Builder.addTokens_cons_eq_ok_iff] at success
      obtain ⟨begun, begins, success⟩ := success
      rw [Builder.add] at begins
      split at begins
      · cases begins
      obtain rfl := Except.ok.inj begins
      obtain ⟨valued, bindings, after, -, -, rfl⟩ := Builder.addTokens_attributes_iff.mp success
      exact ready.opened
  | deeper offset tag content goesOn ih =>
      rw [List.append_assoc, Builder.addTokens_append_eq_ok_iff] at success
      obtain ⟨opened, one, success⟩ := success
      rw [Builder.addTokens_append_eq_ok_iff] at success
      obtain ⟨filled, two, success⟩ := success
      obtain ⟨reading, rfl⟩ := ready.addTokens_tag_iff.mp one
      have inside := @Builder.ready_afterTag entities room scope references builder tag offset
        ready.entities_eq reading
      obtain ⟨nodes, after, reads⟩ := content.exists_reads texts inside two
      exact ih ((reads.grownBy inside two).ready inside) success

/-- A document whose root element is missing or never closed has no tree. -/
theorem OpenTail.unfinished {offset : Nat} {tail : List Token} {tree : Tree}
    (texts : ReadsTexts entities room) (tail_open : OpenTail offset tail)
    (outermost : builder.Outermost entities) (rootless : elements builder.nodes = [])
    (success : builder.addTokens room tail = .ok changed) : changed.finish ≠ .ok tree := by
  have missing : (builder.nodes.any fun node => node.element?.isSome) = false := by
    rw [elements, List.filterMap_eq_nil_iff] at rootless
    simpa using rootless
  cases tail_open with
  | ended offset =>
      obtain rfl := Builder.addTokens_nil_eq_ok_iff.mp success
      simp [Builder.finish, outermost.frames_eq, missing]
  | broken offset name attributes =>
      rw [Builder.addTokens_cons_eq_ok_iff] at success
      obtain ⟨begun, begins, success⟩ := success
      rw [Builder.add] at begins
      split at begins
      · cases begins
      obtain rfl := Except.ok.inj begins
      obtain ⟨valued, bindings, after, -, -, rfl⟩ := Builder.addTokens_attributes_iff.mp success
      simp [Builder.finish, outermost.frames_eq, missing]
  | deeper offset tag content goesOn =>
      rw [List.append_assoc, Builder.addTokens_append_eq_ok_iff] at success
      obtain ⟨opened, one, success⟩ := success
      rw [Builder.addTokens_append_eq_ok_iff] at success
      obtain ⟨filled, two, success⟩ := success
      obtain ⟨reading, rfl⟩ := outermost.addTokens_tag_iff.mp one
      have inside := @Builder.ready_afterTag entities room [] 0 builder tag offset
        outermost.entities_eq reading
      obtain ⟨nodes, after, reads⟩ := content.exists_reads texts inside two
      have opened := goesOn.stays_open texts ((reads.grownBy inside two).ready inside) success
      simp [Builder.finish, opened]

end

/-- The tree of a text is built from the tokens of its scan. -/
theorem Tree.parse_eq_ok_iff_of_scan {text : String} {tokens : List Token} {tree : Tree}
    (scan : Scan.document text.toList = ⟨tokens, none⟩) :
    Tree.parse text = .ok tree ↔
      ∃ grown, Builder.empty.addTokens nestingLimit tokens = .ok grown ∧
        grown.finish = .ok tree := by
  have grows {grown : Builder} :
      Builder.empty.addScan nestingLimit (Builder.follow nestingLimit) ⟨tokens, none⟩ =
          .ok grown ↔ Builder.empty.addTokens nestingLimit tokens = .ok grown := by
    rw [Builder.addScan, bind_eq_ok_iff]
    constructor
    · rintro ⟨middle, added, same⟩
      obtain rfl := Except.ok.inj same
      exact added
    · intro added
      exact ⟨grown, added, rfl⟩
  rw [Tree.parse, scan, bind_eq_ok_iff]
  simp only [grows]

theorem Tree.exists_scan {text : String} {tree : Tree} (success : Tree.parse text = .ok tree) :
    ∃ tokens, Scan.document text.toList = ⟨tokens, none⟩ := by
  rw [Tree.parse, bind_eq_ok_iff] at success
  obtain ⟨grown, grows, -⟩ := success
  cases scan : Scan.document text.toList with
  | mk tokens failure? =>
  cases failure? with
  | none => exact ⟨tokens, rfl⟩
  | some failure =>
      rw [scan, Builder.addScan, bind_eq_ok_iff] at grows
      obtain ⟨middle, -, fails⟩ := grows
      cases fails

/-- The entities that a text declares. -/
def declaredEntities (text : String) : Entities :=
  (Scan.document text.toList).tokens.filterMap Token.entity?

theorem attributeTokens_entity (offset : Nat) (attributes : List AttributeSource) :
    (attributeTokens offset attributes).filterMap Token.entity? = [] := by
  induction attributes generalizing offset with
  | nil => rfl
  | cons source attributes ih => exact ih _

theorem TagSource.tokens_entity (source : TagSource) (offset : Nat) (selfClosing : Bool) :
    (source.tokens offset selfClosing).filterMap Token.entity? = [] := by
  simp [tokens, Token.entity?, List.filterMap_cons, attributeTokens_entity]

theorem AsideSource.entity_token (source : AsideSource) : source.token.entity? = none := by
  cases source <;> rfl

theorem AsideSource.node_token (source : AsideSource) :
    source.token.node? = some source.node := by
  cases source <;> rfl

/-- Nothing is declared in content. -/
theorem Content.tokens_entity (content : Content) (offset : Nat) :
    (content.tokens offset).filterMap Token.entity? = [] := by
  induction content generalizing offset with
  | nil => rfl
  | text run fits rest ih => exact ih _
  | marked source rest ih => exact ih _
  | aside source rest ih =>
      rw [tokens, List.filterMap_cons_none source.entity_token, ih]
  | empty tag rest ih => rw [tokens, List.filterMap_append, tag.tokens_entity, ih, List.nil_append]
  | filled tag inner ending rest innerIh ih =>
      rw [tokens, List.filterMap_append, List.filterMap_append, tag.tokens_entity, innerIh,
        List.filterMap_cons_none rfl, ih]
      rfl

theorem ElementSource.tokens_entity (source : ElementSource) (offset : Nat) :
    (source.tokens offset).filterMap Token.entity? = [] := by
  have whole := (source.before .nil).tokens_entity offset
  rwa [tokens_before, Content.tokens, List.append_nil] at whole

namespace DocumentSource

def entities (source : DocumentSource) : Entities := source.prologTokens.filterMap Token.entity?

/-- The tree of the document if the root element is read as the given one. -/
def tree (source : DocumentSource) (root : Element) : Tree :=
  ⟨source.prologTokens.filterMap Token.node? ++ root.node :: source.asides.map AsideSource.node,
    decide (.doctype ∈ source.prologTokens)⟩

theorem declaredEntities_render (source : DocumentSource) :
    declaredEntities (String.ofList source.render) = source.entities := by
  have asides : (source.asides.map AsideSource.token).filterMap Token.entity? = [] := by
    simp [List.filterMap_map, AsideSource.entity_token]
  rw [declaredEntities, String.toList_ofList, source.scan]
  simp only [tokens, List.filterMap_append, source.root.tokens_entity, asides]
  rw [List.nil_append, List.append_nil]
  rfl

/-- The replacement texts stand before the root element. -/
theorem entities_before (source : DocumentSource) : source.entities.Before source.start := by
  intro pair member
  exact Nat.le_of_lt (source.passes.before pair member)

theorem outermost (source : DocumentSource) :
    (Builder.empty.passed source.prologTokens).Outermost source.entities :=
  ⟨rfl, rfl, rfl, rfl, rfl⟩

theorem elements_prolog {tokens : List Token} (outside : ∀ token ∈ tokens, token.IsOutside) :
    elements (tokens.filterMap Token.node?) = [] := by
  rw [elements, List.filterMap_filterMap, List.filterMap_eq_nil_iff]
  intro token member
  cases outside token member with
  | doctype => rfl
  | entity name replacement => rfl
  | aside source =>
      rw [source.node_token]
      cases source <;> rfl

theorem asides_outside (source : DocumentSource) :
    ∀ token ∈ source.asides.map AsideSource.token, token.IsOutside := by
  intro token member
  obtain ⟨aside, -, rfl⟩ := List.mem_map.mp member
  exact .aside aside

/-- The root element with the asides around it makes a tree. -/
theorem finishes (source : DocumentSource) {root : Element} {filled changed : Builder}
    (closed : filled.frames = [])
    (nodes : filled.nodes = root.node :: (Builder.empty.passed source.prologTokens).nodes)
    (doctype : filled.hasDoctype = (Builder.empty.passed source.prologTokens).hasDoctype)
    (success : filled.addTokens nestingLimit (source.asides.map AsideSource.token) =
      .ok changed) : changed.finish = .ok (source.tree root) := by
  have undeclared : .doctype ∉ source.asides.map AsideSource.token := by
    intro member
    obtain ⟨aside, -, equal⟩ := List.mem_map.mp member
    cases aside <;> cases equal
  have asides : (source.asides.map AsideSource.token).filterMap Token.node? =
      source.asides.map AsideSource.node := by
    rw [List.filterMap_map, ← List.filterMap_eq_map]
    congr 1
    funext aside
    exact aside.node_token
  rw [Builder.addTokens_outside closed source.asides_outside] at success
  obtain rfl := Except.ok.inj success
  have rooted : ((filled.passed (source.asides.map AsideSource.token)).nodes.any fun node =>
      node.element?.isSome) = true := by
    simp [Builder.passed, nodes, Element.node, Node.element?]
  rw [Builder.finish, if_neg (by simp [Builder.passed, closed]), if_pos rooted]
  simp [Builder.passed, nodes, doctype, undeclared, asides, tree, Builder.empty]

/-- A written document spells a tree exactly if its root element has a reading. -/
theorem parse_eq_ok_iff (source : DocumentSource) (formed : source.entities.WellFormed)
    {tree : Tree} :
    Tree.parse (String.ofList source.render) = .ok tree ↔
      ∃ reading after, source.root.Reads source.entities nestingLimit [] 0 reading after ∧
        tree = source.tree (reading source.start) := by
  have scan : Scan.document (String.ofList source.render).toList = ⟨source.tokens, none⟩ := by
    rw [String.toList_ofList, source.scan]
  have prolog : Builder.empty.addTokens nestingLimit source.prologTokens =
      .ok (Builder.empty.passed source.prologTokens) :=
    Builder.addTokens_outside rfl source.passes.outside
  rw [Tree.parse_eq_ok_iff_of_scan scan, tokens]
  simp only [Builder.addTokens_append_eq_ok_iff, prolog, Except.ok.injEq, exists_eq_left']
  constructor
  · rintro ⟨grown, ⟨filled, root, asides⟩, finished⟩
    obtain ⟨reading, after, reads⟩ :=
      source.root.exists_reads (formed.readsTexts nestingLimit) source.outermost root
    obtain ⟨filled', root', closed, nodes, doctype⟩ := reads.adds_root source.outermost source.start
    rw [root] at root'
    obtain rfl := Except.ok.inj root'
    refine ⟨reading, after, reads, ?_⟩
    rw [source.finishes closed nodes doctype asides] at finished
    exact (Except.ok.inj finished).symm
  · rintro ⟨reading, after, reads, rfl⟩
    obtain ⟨filled, root, closed, nodes, doctype⟩ := reads.adds_root source.outermost source.start
    have asides := @Builder.addTokens_outside nestingLimit filled closed _ source.asides_outside
    exact ⟨_, ⟨filled, root, asides⟩, source.finishes closed nodes doctype asides⟩

end DocumentSource

/-- Every text that spells a tree was written as a document. -/
theorem Tree.exists_documentSource {text : String} {tree : Tree}
    (success : Tree.parse text = .ok tree) (formed : (declaredEntities text).WellFormed) :
    ∃ source : DocumentSource, source.render = text.toList := by
  obtain ⟨tokens, scan⟩ := Tree.exists_scan success
  rcases Markup.exists_documentSource scan with
    ⟨source, written, -⟩ | ⟨first, tail, place, rfl, outside, tail_open⟩
  · exact ⟨source, written⟩
  have entities_eq : declaredEntities text =
      first.filterMap Token.entity? ++ tail.filterMap Token.entity? := by
    rw [declaredEntities, scan, List.filterMap_append]
  have formed' : Entities.WellFormed (first.filterMap Token.entity?) := by
    intro pair member
    exact formed pair (by rw [entities_eq]; exact List.mem_append_left _ member)
  have prolog : Builder.empty.addTokens nestingLimit first = .ok (Builder.empty.passed first) :=
    Builder.addTokens_outside rfl outside
  rw [Tree.parse_eq_ok_iff_of_scan scan] at success
  simp only [Builder.addTokens_append_eq_ok_iff, prolog, Except.ok.injEq,
    exists_eq_left'] at success
  obtain ⟨grown, grows, finished⟩ := success
  have rootless : elements (Builder.empty.passed first).nodes = [] := by
    simp [Builder.passed, Builder.empty, DocumentSource.elements_prolog outside]
  exact absurd finished (tail_open.unfinished (formed'.readsTexts nestingLimit)
    ⟨rfl, rfl, rfl, rfl, rfl⟩ rootless grows)

end RunSigning.Markup
