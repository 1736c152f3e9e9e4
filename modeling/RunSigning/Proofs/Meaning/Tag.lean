import RunSigning.Proofs.Grammar.Content
import RunSigning.Proofs.Meaning.Shape
import RunSigning.Proofs.Meaning.Value

/-
This file says what a start tag means. The reading of a tag has no places in it: the same reading
holds at every offset, and says whether the builder accepts the tag and what it adds.
-/

namespace RunSigning.Markup
open RunSigning.Text

theorem bind_eq_ok_iff {E A B : Type} {first : Except E A} {next : A → Except E B} {result : B} :
    (first >>= next) = .ok result ↔ ∃ middle, first = .ok middle ∧ next middle = .ok result := by
  cases first with
  | error failure =>
      constructor
      · intro equal
        cases equal
      · rintro ⟨middle, equal, -⟩
        cases equal
  | ok value =>
      constructor
      · intro equal
        exact ⟨value, rfl, equal⟩
      · rintro ⟨middle, equal, goesOn⟩
        cases equal
        exact goesOn

/-- The tree grows by tokens, and follows references to entities on the way. -/
def Builder.addTokens (room : Nat) (builder : Builder) (tokens : List Token) :
    Except Failure Builder :=
  tokens.foldlM (Builder.add room (Builder.follow room)) builder

section
variable {room : Nat} {builder changed : Builder}

@[simp] theorem Builder.addTokens_nil_eq_ok_iff :
    builder.addTokens room [] = .ok changed ↔ changed = builder := by
  constructor
  · intro equal
    cases equal
    rfl
  · rintro rfl
    rfl

theorem Builder.addTokens_cons_eq_ok_iff {token : Token} {tokens : List Token} :
    builder.addTokens room (token :: tokens) = .ok changed ↔
      ∃ middle, builder.add room (Builder.follow room) token = .ok middle ∧
        middle.addTokens room tokens = .ok changed := by
  rw [addTokens, List.foldlM_cons, bind_eq_ok_iff]
  rfl

theorem Builder.addTokens_append_eq_ok_iff {first second : List Token} :
    builder.addTokens room (first ++ second) = .ok changed ↔
      ∃ middle, builder.addTokens room first = .ok middle ∧
        middle.addTokens room second = .ok changed := by
  rw [addTokens, List.foldlM_append, bind_eq_ok_iff]
  rfl

theorem Builder.addTokens_singleton {token : Token} :
    builder.addTokens room [token] = builder.add room (Builder.follow room) token := by
  cases added : builder.add room (Builder.follow room) token with
  | error failure =>
      rw [addTokens, List.foldlM_cons, added]
      rfl
  | ok changed =>
      rw [addTokens, List.foldlM_cons, added]
      rfl

end

/-- Whether an attribute with this name declares a namespace. -/
def QualifiedName.declares (name : QualifiedName) : Bool :=
  name.qualifier == "xmlns" || name.localName == "xmlns"

/-- The binding that an attribute with this name and value adds, if it adds one. -/
def QualifiedName.binding (name : QualifiedName) (value : String) : Scope :=
  if name.qualifier = "xmlns" then
    if name.localName = "xml" then [] else [⟨some name.localName, value⟩]
  else if name.localName = "xmlns" then [⟨none, value⟩]
  else []

/-- Whether a tag with these bindings may hold an attribute with this name and value next. -/
def Scope.Admits (bindings : Scope) (name : QualifiedName) (value : String) : Prop :=
  if name.qualifier = "xmlns" then
    value ≠ declarationUri ∧ ¬ (name.localName = "xml" ∧ value ≠ xmlUri) ∧
      ¬ (name.localName ≠ "xml" ∧ value = xmlUri) ∧ bindings.binds name.localName = false
  else if name.localName = "xmlns" then value ≠ xmlUri ∧ value ≠ declarationUri
  else True

/-- The attribute waits for the end of its tag unless it declares a namespace. -/
def pending (written : WrittenAttribute) (value : String) : List PendingAttribute :=
  if written.name.declares then [] else [⟨written, value⟩]

theorem Builder.addAttribute_eq_ok_iff {builder changed : Builder} {written : WrittenAttribute}
    {value : String} :
    builder.addAttribute written value = .ok changed ↔
      builder.bindings.Admits written.name value ∧
        changed = { builder with
          bindings := builder.bindings ++ written.name.binding value
          attributes := builder.attributes ++ pending written value } := by
  simp only [addAttribute, Scope.Admits, QualifiedName.binding]
  by_cases prefixed : written.name.qualifier = "xmlns"
  · have waits : pending written value = [] := by simp [pending, QualifiedName.declares, prefixed]
    rw [waits, List.append_nil, if_pos prefixed, if_pos prefixed, if_pos prefixed]
    by_cases declared : value = declarationUri
    · simp [declared]
    by_cases rebound : written.name.localName = "xml" ∧ value ≠ xmlUri
    · simp [if_neg declared, rebound]
    by_cases reserved : written.name.localName ≠ "xml" ∧ value = xmlUri
    · rw [if_neg declared, if_neg rebound, if_pos reserved]
      simp [reserved]
    rw [if_neg declared, if_neg rebound, if_neg reserved]
    cases repeated : builder.bindings.binds written.name.localName with
    | true => simp
    | false =>
        have fine : value ≠ declarationUri ∧ ¬ (written.name.localName = "xml" ∧ value ≠ xmlUri) ∧
            ¬ (written.name.localName ≠ "xml" ∧ value = xmlUri) ∧ false = false :=
          ⟨declared, rebound, reserved, rfl⟩
        rw [iff_true_intro fine, true_and, if_neg Bool.false_ne_true]
        split
        · rw [List.append_nil, Except.ok.injEq, eq_comm]
        · rw [Except.ok.injEq, eq_comm]
  · rw [if_neg prefixed, if_neg prefixed, if_neg prefixed]
    by_cases default : written.name.localName = "xmlns"
    · have waits : pending written value = [] := by simp [pending, QualifiedName.declares, default]
      rw [waits, List.append_nil, if_pos default, if_pos default, if_pos default]
      by_cases reserved : value = xmlUri
      · simp [reserved]
      by_cases declared : value = declarationUri
      · rw [if_neg reserved, if_pos declared]
        simp [declared]
      rw [if_neg reserved, if_neg declared, Except.ok.injEq, eq_comm]
      simp only [ne_eq, reserved, declared, not_false_eq_true, true_and]
    · have waits : pending written value = [⟨written, value⟩] := by
        simp [pending, QualifiedName.declares, prefixed, default]
      rw [waits, if_neg default, if_neg default, if_neg default, Except.ok.injEq, eq_comm,
        List.append_nil, true_and]

/-- Attributes are read with their values, after the given bindings and references. -/
inductive ReadsAttributes (entities : Entities) (room : Nat) :
    Scope → Nat → List (AttributeSource × String) → Scope → Nat → Prop where
  | nil (bindings : Scope) (references : Nat) :
      ReadsAttributes entities room bindings references [] bindings references
  | cons {bindings final : Scope} {references between after : Nat} {source : AttributeSource}
      {value : String} {rest : List (AttributeSource × String)}
      (reads : ∀ offset, normalizeValue entities room references ⟨offset, source.value⟩ =
        .ok (value, between))
      (admits : bindings.Admits source.name.name value)
      (later : ReadsAttributes entities room (bindings ++ source.name.name.binding value) between
        rest final after) :
      ReadsAttributes entities room bindings references ((source, value) :: rest) final after

/-- The attributes that wait for the end of a tag, if the first one begins at the given offset. -/
def pendingFrom : Nat → List (AttributeSource × String) → List PendingAttribute
  | _, [] => []
  | offset, (source, value) :: rest =>
      pending (source.written offset) value ++ pendingFrom (offset + byteLength source.render) rest

theorem Builder.addTokens_attributes_iff {room offset : Nat} {builder changed : Builder}
    {sources : List AttributeSource} :
    builder.addTokens room (attributeTokens offset sources) = .ok changed ↔
      ∃ valued bindings after, valued.map Prod.fst = sources ∧
        ReadsAttributes builder.entities room builder.bindings builder.references valued
          bindings after ∧
        changed = { builder with
          bindings := bindings
          attributes := builder.attributes ++ pendingFrom offset valued
          references := after } := by
  induction sources generalizing offset builder with
  | nil =>
      rw [attributeTokens, addTokens_nil_eq_ok_iff]
      constructor
      · rintro rfl
        exact ⟨[], _, _, rfl, .nil _ _, by simp [pendingFrom]⟩
      · rintro ⟨valued, bindings, after, equal, reads, rfl⟩
        obtain rfl := List.map_eq_nil_iff.mp equal
        cases reads
        simp [pendingFrom]
  | cons source sources ih =>
      rw [attributeTokens, addTokens_cons_eq_ok_iff]
      simp only [Builder.add, bind_eq_ok_iff, Prod.exists, addAttribute_eq_ok_iff, ih]
      constructor
      · rintro ⟨_, ⟨value, between, reads, admits, rfl⟩, valued, bindings, after, rfl, later, rfl⟩
        refine ⟨(source, value) :: valued, bindings, after, rfl,
          .cons (fun offset' => normalizeValue_moved offset' reads) admits later, ?_⟩
        simp [pendingFrom]
      · rintro ⟨valued, bindings, after, equal, reads, rfl⟩
        cases valued with
        | nil => cases equal
        | cons pair valued =>
            obtain ⟨rfl, rfl⟩ := List.cons.inj equal
            cases reads with
            | cons reads admits later =>
                refine ⟨_, ⟨_, _, reads _, admits, rfl⟩, valued, bindings, after, rfl, later, ?_⟩
                simp [pendingFrom]

/-- The namespace of an attribute with this name, if its qualifier is bound. -/
def Scope.attributeUri? (scope : Scope) (name : QualifiedName) : Option (Option String) :=
  if name.qualifier = "xml" then some (some xmlUri)
  else if name.qualifier = "" then some none
  else (scope.find? name.qualifier).map some

theorem Scope.resolveAttribute_eq_ok_iff {scope : Scope} {written : WrittenAttribute}
    {uri? : Option String} :
    scope.resolveAttribute written = .ok uri? ↔
      scope.attributeUri? written.name = some uri? := by
  rw [resolveAttribute, attributeUri?]
  split
  · simp
  split
  · simp
  split <;> simp_all

/-- The namespace of an element with this name, if its qualifier is bound. -/
def Scope.elementUri? (scope : Scope) (name : QualifiedName) : Option (Option String) :=
  match scope.find? name.qualifier with
  | some uri => some (some uri)
  | none => if name.qualifier = "" then some none else none

theorem Scope.resolveElement_eq_ok_iff {scope : Scope} {name : QualifiedName} {start : Nat}
    {uri? : Option String} :
    scope.resolveElement name start = .ok uri? ↔ scope.elementUri? name = some uri? := by
  rw [resolveElement, elementUri?]
  cases scope.find? name.qualifier with
  | some uri => simp
  | none =>
      dsimp only
      split <;> simp

/-- The attribute that one becomes at the end of its tag. -/
def Scope.settle (scope : Scope) (waiting : PendingAttribute) : Attribute :=
  ⟨waiting.written.name, (scope.attributeUri? waiting.written.name).join, waiting.value,
    waiting.written.valueSpan⟩

/-- What tells an attribute from the others of its tag. -/
def AttributeShape.key (held : AttributeShape) : String × Option String :=
  (held.name.localName, held.uri?)

theorem any_eq_true_iff_key_mem {resolved : List Attribute} {held : Attribute} :
    (resolved.any fun other =>
        other.name.localName == held.name.localName && other.uri? == held.uri?) = true ↔
      held.shape.key ∈ resolved.map fun other => other.shape.key := by
  simp only [List.any_eq_true, Bool.and_eq_true, beq_iff_eq, List.mem_map,
    AttributeShape.key, Attribute.shape, Prod.mk.injEq]

theorem Scope.resolveAttributes_eq_ok_iff {scope : Scope} {resolved attributes : List Attribute}
    {waiting : List PendingAttribute}
    (distinct : (resolved.map fun held => held.shape.key).Nodup) :
    scope.resolveAttributes resolved waiting = .ok attributes ↔
      (∀ one ∈ waiting, (scope.attributeUri? one.written.name).isSome = true) ∧
        ((resolved ++ waiting.map scope.settle).map fun held => held.shape.key).Nodup ∧
        attributes = resolved ++ waiting.map scope.settle := by
  induction waiting generalizing resolved with
  | nil =>
      rw [resolveAttributes, List.map_nil, List.append_nil, Except.ok.injEq, eq_comm]
      simp [distinct]
  | cons first waiting ih =>
      obtain ⟨written, value⟩ := first
      rw [resolveAttributes, bind_eq_ok_iff]
      simp only [resolveAttribute_eq_ok_iff]
      cases found : scope.attributeUri? written.name with
      | none => simp [found]
      | some uri? =>
          have settled : scope.settle ⟨written, value⟩ =
              ⟨written.name, uri?, value, written.valueSpan⟩ := by
            rw [settle, found]
            rfl
          simp only [Option.some.injEq, exists_eq_left', List.forall_mem_cons, found,
            Option.isSome_some, true_and, List.map_cons, settled]
          have repeats := @any_eq_true_iff_key_mem resolved
            ⟨written.name, uri?, value, written.valueSpan⟩
          have keys : (resolved ++ ⟨written.name, uri?, value, written.valueSpan⟩ ::
              waiting.map scope.settle).map (fun held => held.shape.key) =
              resolved.map (fun held => held.shape.key) ++
                (written.name.localName, uri?) ::
                  (waiting.map scope.settle).map fun held => held.shape.key := by
            simp [AttributeShape.key, Attribute.shape]
          split
          · rename_i repeated
            simp only [reduceCtorEq, false_iff, not_and]
            intro _ fresh
            rw [keys, List.nodup_append] at fresh
            exact absurd rfl (fresh.2.2 _ (repeats.mp repeated) _ List.mem_cons_self)
          · rename_i fresh
            have distinct' : ((resolved ++
                [(⟨written.name, uri?, value, written.valueSpan⟩ : Attribute)]).map
                  fun held => held.shape.key).Nodup := by
              rw [List.map_append, List.nodup_append]
              refine ⟨distinct, by simp, ?_⟩
              intro key member other single same
              rw [List.mem_singleton.mp single] at same
              rw [same] at member
              exact fresh (repeats.mpr member)
            rw [ih distinct', List.append_assoc, List.singleton_append]

/-- The attributes of a tag that declare no namespace, once they are resolved. -/
def settledShapes (scope : Scope) (valued : List (AttributeSource × String)) :
    List AttributeShape :=
  (valued.filter fun pair => !pair.1.name.name.declares).map fun pair =>
    ⟨pair.1.name.name, (scope.attributeUri? pair.1.name.name).join, pair.2⟩

theorem map_shape_settle_pendingFrom (scope : Scope) (offset : Nat)
    (valued : List (AttributeSource × String)) :
    ((pendingFrom offset valued).map scope.settle).map Attribute.shape =
      settledShapes scope valued := by
  induction valued generalizing offset with
  | nil => rfl
  | cons pair valued ih =>
      obtain ⟨source, value⟩ := pair
      rw [pendingFrom, List.map_append, List.map_append, ih, pending]
      cases declares : source.name.name.declares with
      | true => simp [settledShapes, AttributeSource.written, declares]
      | false =>
          simp [settledShapes, AttributeSource.written, declares, Scope.settle, Attribute.shape]

/-- Whether the qualifiers of all attributes are bound. -/
def Scope.Knows (scope : Scope) (valued : List (AttributeSource × String)) : Prop :=
  ∀ pair ∈ valued, pair.1.name.name.declares = false →
    (scope.attributeUri? pair.1.name.name).isSome = true

theorem Scope.knows_iff {scope : Scope} {offset : Nat}
    {valued : List (AttributeSource × String)} :
    (∀ one ∈ pendingFrom offset valued,
      (scope.attributeUri? one.written.name).isSome = true) ↔ scope.Knows valued := by
  induction valued generalizing offset with
  | nil => simp [pendingFrom, Knows]
  | cons pair valued ih =>
      obtain ⟨source, value⟩ := pair
      rw [pendingFrom, Knows, List.forall_mem_append, List.forall_mem_cons, ih, pending]
      cases declares : source.name.name.declares with
      | true => simp [AttributeSource.written, declares, Knows]
      | false => simp [AttributeSource.written, declares, Knows]

theorem Scope.resolveAttributes_pendingFrom_iff {scope : Scope} {offset : Nat}
    {valued : List (AttributeSource × String)} {attributes : List Attribute} :
    scope.resolveAttributes [] (pendingFrom offset valued) = .ok attributes ↔
      scope.Knows valued ∧ ((settledShapes scope valued).map AttributeShape.key).Nodup ∧
        attributes = (pendingFrom offset valued).map scope.settle := by
  have keys : ((pendingFrom offset valued).map scope.settle).map (fun held => held.shape.key) =
      (settledShapes scope valued).map AttributeShape.key := by
    rw [← map_shape_settle_pendingFrom scope offset valued, List.map_map, List.map_map,
      List.map_map]
    rfl
  rw [resolveAttributes_eq_ok_iff (by simp), knows_iff, List.nil_append, keys]

/-- How a start tag is read inside a scope, after a count of references. -/
structure TagSource.Reading (source : TagSource) (entities : Entities) (room : Nat)
    (scope : Scope) (references : Nat) where
  valued : List (AttributeSource × String)
  bindings : Scope
  after : Nat
  uri? : Option String
  sources : valued.map Prod.fst = source.attributes
  unreserved : source.name.name.qualifier ≠ "xmlns"
  reads : ReadsAttributes entities room [] references valued bindings after
  knows : (bindings ++ scope).Knows valued
  distinct : ((settledShapes (bindings ++ scope) valued).map AttributeShape.key).Nodup
  resolves : (bindings ++ scope).elementUri? source.name.name = some uri?

namespace TagSource.Reading

variable {source : TagSource} {entities : Entities} {room : Nat} {scope : Scope}
  {references : Nat}

/-- The scope inside the element. -/
def inner (reading : source.Reading entities room scope references) : Scope :=
  reading.bindings ++ scope

/-- The attributes of the tag if it begins at the given offset. -/
def attributes (reading : source.Reading entities room scope references) (offset : Nat) :
    List Attribute :=
  (pendingFrom (offset + byteLength ('<' :: source.name.run)) reading.valued).map
    reading.inner.settle

theorem map_shape_attributes (reading : source.Reading entities room scope references)
    (offset : Nat) :
    (reading.attributes offset).map Attribute.shape =
      settledShapes reading.inner reading.valued :=
  map_shape_settle_pendingFrom _ _ _

end TagSource.Reading

/-- The builder after a start tag that begins at the given offset. -/
def Builder.afterTag {source : TagSource} {entities : Entities} {room : Nat} {scope : Scope}
    {references : Nat} (builder : Builder)
    (reading : source.Reading entities room scope references) (offset : Nat)
    (selfClosing : Bool) : Builder :=
  let settled := { builder with
    tag? := some (source.name.name, offset)
    bindings := []
    attributes := []
    references := reading.after
    joinsText := false }
  if selfClosing then
    settled.addNode (.element ⟨source.name.name, reading.uri?, reading.attributes offset,
      ⟨offset, offset + byteLength (source.render ++ closing true)⟩, true⟩ [])
  else
    { settled with
      frames := ⟨source.name.name, reading.uri?, reading.attributes offset, offset, reading.inner,
        []⟩ :: builder.frames }

/-- The builder accepts a start tag exactly if the tag has a reading. -/
theorem Builder.addTokens_tag_iff {room offset : Nat} {builder changed : Builder}
    {source : TagSource} {selfClosing : Bool} (unbound : builder.bindings = [])
    (settled : builder.attributes = []) :
    builder.addTokens room (source.tokens offset selfClosing) = .ok changed ↔
      ∃ reading : source.Reading builder.entities room builder.scope builder.references,
        changed = builder.afterTag reading offset selfClosing := by
  rw [TagSource.tokens, List.cons_append, addTokens_cons_eq_ok_iff]
  simp only [addTokens_append_eq_ok_iff, addTokens_attributes_iff, addTokens_singleton]
  constructor
  · rintro ⟨opened, opens, _, ⟨valued, bindings, after, sources, reads, rfl⟩, ends⟩
    rw [Builder.add] at opens
    split at opens
    · cases opens
    rename_i unreserved
    obtain rfl := Except.ok.inj opens
    rw [Builder.add, endStartTag] at ends
    simp only [bind_eq_ok_iff, settled, unbound, List.nil_append,
      Scope.resolveElement_eq_ok_iff, Scope.resolveAttributes_pendingFrom_iff] at ends reads
    obtain ⟨attributes, ⟨knows, distinct, rfl⟩, uri?, found, ends⟩ := ends
    refine ⟨⟨valued, bindings, after, uri?, sources, unreserved, reads, knows, distinct, found⟩, ?_⟩
    cases selfClosing <;> exact (Except.ok.inj ends).symm
  · rintro ⟨⟨valued, bindings, after, uri?, sources, unreserved, reads, knows, distinct, found⟩, rfl⟩
    refine ⟨_, if_neg unreserved, _, ⟨valued, bindings, after, sources, ?_, rfl⟩, ?_⟩
    · rw [unbound]
      exact reads
    · rw [Builder.add, endStartTag]
      simp only [bind_eq_ok_iff, settled, List.nil_append,
        Scope.resolveElement_eq_ok_iff, Scope.resolveAttributes_pendingFrom_iff]
      refine ⟨_, ⟨knows, distinct, rfl⟩, uri?, found, ?_⟩
      cases selfClosing <;> rfl

end RunSigning.Markup
