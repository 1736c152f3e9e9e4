import RunSigning.Declaration.Record
import RunSigning.Proofs.Grammar.Allowed
import RunSigning.Proofs.Meaning.Count
import RunSigning.Proofs.Meaning.Plain

/-
This file gives a start tag another value attribute. The tag is then read with the new value, and
with all its other attributes as before.
-/

namespace RunSigning.Markup
open RunSigning.Text

/-- The name of the attribute that holds a signature. -/
def valueName : WrittenName :=
  ⟨"value".toList, ⟨none, "value"⟩, by decide +kernel, by decide +kernel⟩

/-- The name of the element that holds a signature. -/
def signatureName : WrittenName :=
  ⟨"signature".toList, ⟨none, "signature"⟩, by decide +kernel, by decide +kernel⟩

theorem isPlain_valueName : valueName.name.IsPlain "value" := ⟨rfl, rfl⟩

theorem blank_nil : ∀ c ∈ ([] : List Char), isSpace c = true := List.forall_mem_nil _

/-- A new value attribute as it is written. -/
def valueSource (value : String) (allowed : AllAllowed value.toList) : AttributeSource where
  lead := [' ']
  name := valueName
  before := []
  after := []
  quote := '"'
  value := escape '"' value.toList
  lead_filled := by decide
  lead_blank := by decide
  before_blank := blank_nil
  after_blank := blank_nil
  quote_fits := .inr rfl
  value_fits := escape_fits (.inr rfl) allowed

theorem valueAttribute_eq (value : String) :
    valueAttribute value = "value".toList ++ '=' :: '"' :: (escape '"' value.toList ++ ['"']) := by
  have opening : "value=\"".toList = "value".toList ++ ['=', '"'] := by decide +kernel
  unfold valueAttribute
  rw [opening]
  simp only [List.append_assoc, List.cons_append, List.nil_append]

theorem render_valueSource {value : String} (allowed : AllAllowed value.toList) :
    (valueSource value allowed).render = ' ' :: valueAttribute value := by
  rw [valueAttribute_eq]
  simp only [valueSource, AttributeSource.render, AttributeSource.opening, AttributeSource.equals,
    valueName, List.append_assoc, List.cons_append, List.nil_append]

theorem equals_valueSource {value : String} (allowed : AllAllowed value.toList) :
    (valueSource value allowed).equals = ['='] := rfl

/-- A new value attribute is the value, escaped, between two fixed texts. -/
theorem exists_opening_valueAttribute :
    ∃ opening, opening.getLast? = some '"' ∧
      (∀ value, valueAttribute value = opening ++ (escape '"' value.toList ++ ['"'])) ∧
      ∀ value allowed, (valueSource value allowed).opening = ' ' :: opening := by
  refine ⟨"value".toList ++ ['=', '"'], ?_, fun value => ?_, fun value allowed => rfl⟩
  · rw [List.getLast?_append]
    rfl
  · rw [valueAttribute_eq]
    simp only [List.append_assoc, List.cons_append, List.nil_append]

section
variable {entities : Entities} {room : Nat} {bindings final : Scope} {references after : Nat}
  {first second : List (AttributeSource × String)}

theorem ReadsAttributes.append_iff :
    ReadsAttributes entities room bindings references (first ++ second) final after ↔
      ∃ middle between, ReadsAttributes entities room bindings references first middle between ∧
        ReadsAttributes entities room middle between second final after := by
  induction first generalizing bindings references with
  | nil =>
      constructor
      · intro reads
        exact ⟨_, _, .nil bindings references, reads⟩
      · rintro ⟨middle, between, reads, later⟩
        cases reads
        exact later
  | cons pair first ih =>
      constructor
      · intro reads
        cases reads with
        | cons reads admits later =>
            obtain ⟨middle, between, goesOn, last⟩ := ih.mp later
            exact ⟨middle, between, .cons reads admits goesOn, last⟩
      · rintro ⟨middle, between, reads, last⟩
        cases reads with
        | cons reads admits later => exact .cons reads admits (ih.mpr ⟨middle, between, later, last⟩)

/-- Value attributes bind no namespace. -/
theorem ReadsAttributes.unbound
    (reads : ReadsAttributes entities room bindings references first final after)
    (plain : ∀ pair ∈ first, pair.1.name.name.IsPlain "value") : final = bindings := by
  induction reads with
  | nil bindings references => rfl
  | @cons bindings final references between after source value rest reads admits later ih =>
      obtain ⟨named, others⟩ := List.forall_mem_cons.mp plain
      rw [named.binding (by decide), List.append_nil] at ih
      exact ih others

end

theorem settledShapes_append (scope : Scope) (first second : List (AttributeSource × String)) :
    settledShapes scope (first ++ second) =
      settledShapes scope first ++ settledShapes scope second := by
  simp [settledShapes]

/-- A value attribute settles with its value and in no namespace. -/
theorem settledShapes_value_cons (scope : Scope) {source : AttributeSource}
    (named : source.name.name.IsPlain "value") (value : String)
    (rest : List (AttributeSource × String)) :
    settledShapes scope ((source, value) :: rest) =
      ⟨source.name.name, none, value⟩ :: settledShapes scope rest := by
  simp [settledShapes, named.declares (by decide), named.attributeUri]

/-- A tag may be given another value attribute in place of its own, or its first one. -/
theorem TagSource.Reading.exists_revalued {entities : Entities} {scope : Scope}
    {tag changed : TagSource} (reading : tag.Reading entities nestingLimit scope 0)
    {front old back : List (AttributeSource × String)}
    (valued : reading.valued = front ++ (old ++ back))
    (plain : ∀ pair ∈ old, pair.1.name.name.IsPlain "value")
    {attr : AttributeSource} (named : attr.name.name.IsPlain "value") {value : String}
    (written : attr.value = escape attr.quote value.toList)
    (sources : changed.attributes = front.map Prod.fst ++ attr :: back.map Prod.fst)
    (sameName : changed.name = tag.name)
    (unvalued : ("value", none) ∉
      (settledShapes reading.inner (front ++ back)).map AttributeShape.key) :
    ∃ reading' : changed.Reading entities nestingLimit scope 0,
      reading'.inner = reading.inner ∧ reading'.uri? = reading.uri? ∧
      reading'.valued = front ++ (attr, value) :: back ∧
      settledShapes reading'.inner reading'.valued = settledShapes reading.inner front ++
        ⟨attr.name.name, none, value⟩ :: settledShapes reading.inner back := by
  have reads := reading.reads
  rw [valued, ReadsAttributes.append_iff] at reads
  obtain ⟨middle, between, frontReads, reads⟩ := reads
  obtain ⟨middle', between', oldReads, backReads⟩ := ReadsAttributes.append_iff.mp reads
  obtain rfl := frontReads.settles rfl
  obtain rfl := oldReads.settles rfl
  obtain rfl := oldReads.unbound plain
  have reads' : ReadsAttributes entities nestingLimit [] 0 (front ++ (attr, value) :: back)
      reading.bindings reading.after := by
    have valueReads (offset : Nat) : normalizeValue entities nestingLimit 0 ⟨offset, attr.value⟩ =
        .ok (value, 0) := by
      rw [written, normalizeValue_escape, String.ofList_toList]
    refine ReadsAttributes.append_iff.mpr
      ⟨_, 0, frontReads, .cons valueReads (named.admits (by decide) _ _) ?_⟩
    rw [named.binding (by decide), List.append_nil]
    exact backReads
  have shapes : settledShapes reading.inner (front ++ (attr, value) :: back) =
      settledShapes reading.inner front ++
        ⟨attr.name.name, none, value⟩ :: settledShapes reading.inner back := by
    rw [settledShapes_append, settledShapes_value_cons _ named]
  refine ⟨⟨front ++ (attr, value) :: back, reading.bindings, reading.after, reading.uri?,
    ?_, ?_, reads', ?_, ?_, ?_⟩, rfl, rfl, rfl, shapes⟩
  · rw [sources]
    simp
  · rw [sameName]
    exact reading.unreserved
  · intro pair member
    have knows := reading.knows
    rw [valued] at knows
    rcases List.mem_append.mp member with left | right
    · exact knows pair (List.mem_append_left _ left)
    rcases List.mem_cons.mp right with rfl | later
    · intro _
      rw [named.attributeUri]
      rfl
    · exact knows pair (List.mem_append_right _ (List.mem_append_right _ later))
  · have distinct := reading.distinct
    rw [valued] at distinct
    change ((settledShapes reading.inner _).map AttributeShape.key).Nodup at distinct
    change ((settledShapes reading.inner _).map AttributeShape.key).Nodup
    rw [settledShapes_append, List.map_append] at unvalued
    rw [settledShapes_append, settledShapes_append, List.map_append, List.map_append] at distinct
    rw [shapes, List.map_append, List.map_cons, List.perm_middle.nodup_iff, List.nodup_cons]
    rw [show AttributeShape.key ⟨attr.name.name, none, value⟩ = ("value", none) by
      rw [AttributeShape.key, named.localName_eq]]
    refine ⟨unvalued, ?_⟩
    exact distinct.sublist (List.Sublist.append_left (List.sublist_append_right _ _) _)
  · rw [sameName]
    exact reading.resolves

end RunSigning.Markup
