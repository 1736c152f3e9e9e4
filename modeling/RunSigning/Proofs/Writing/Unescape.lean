import RunSigning.Proofs.Recording.Document

/-
This file undoes escaping. A text is found again by putting every reference in place of which it
stands, and a document with the escaped text as a value has the text as its value.
-/

namespace RunSigning.Markup
open RunSigning.Text

/-- The references that escaping writes, with the characters that they stand for. -/
def escapeReferences : List (List Char × Char) :=
  [("&amp;".toList, '&'), ("&lt;".toList, '<'), ("&quot;".toList, '"'), ("&apos;".toList, '\''),
    ("&#x9;".toList, '\t'), ("&#xA;".toList, '\n'), ("&#xD;".toList, '\r')]

/-- A quote is written as a reference between quotes of its own kind only. -/
def referencesBetween (quote : Char) : List (List Char × Char) :=
  escapeReferences.filter fun pair => (pair.2 != '"' && pair.2 != '\'') || pair.2 == quote

/-- The text with each reference replaced by its character. -/
def unescape (text : List Char) : List Char :=
  match text with
  | [] => []
  | c :: rest =>
      match escapeReferences.find? fun pair => pair.1.isPrefixOf (c :: rest) with
      | some (written, shown) => shown :: unescape (rest.drop (written.length - 1))
      | none => c :: unescape rest
termination_by text.length
decreasing_by all_goals simp only [List.length_drop, List.length_cons]; omega

/-- What is written for a character that does not stand for itself is one of the references. -/
theorem IsReferenced.mem {quote c : Char} (referenced : IsReferenced c (escapeCharacter quote c)) :
    (escapeCharacter quote c, c) ∈ referencesBetween quote := by
  have among {pair : List Char × Char} (listed : pair ∈ escapeReferences)
      (fits : ((pair.2 != '"' && pair.2 != '\'') || pair.2 == quote) = true) :
      pair ∈ referencesBetween quote := List.mem_filter.2 ⟨listed, fits⟩
  revert referenced
  unfold escapeCharacter
  split
  · rintro -
    subst_vars
    exact among (by decide) rfl
  split
  · rintro -
    subst_vars
    exact among (by decide) rfl
  split
  · rintro -
    rename_i quoted
    obtain ⟨rfl, rfl⟩ := quoted
    exact among (by decide) rfl
  split
  · rintro -
    rename_i quoted
    obtain ⟨rfl, rfl⟩ := quoted
    exact among (by decide) rfl
  split
  · rintro -
    subst_vars
    exact among (by decide) rfl
  split
  · rintro -
    subst_vars
    exact among (by decide) rfl
  split
  · rintro -
    subst_vars
    exact among (by decide) rfl
  · intro referenced
    have run := referenced.reads 0
    generalize written : [c] = text at run
    cases run <;> simp at written

/-- No reference is the beginning of another one. -/
theorem escapeReferences_apart : ∀ pair ∈ escapeReferences, ∀ other ∈ escapeReferences,
    pair.1 <+: other.1 → pair = other := by
  decide

/-- Each reference begins with the only ampersand in it, and holds no bracket, quote or blank. -/
theorem escapeReferences_fit : ∀ pair ∈ escapeReferences, pair.1.head? = some '&' ∧
    '&' ∉ pair.1.tail ∧ ∀ c ∈ ['<', '"', '\'', '\t', '\n', '\r'], c ∉ pair.1 := by
  decide

theorem exists_cons_of_mem_escapeReferences {pair : List Char × Char}
    (listed : pair ∈ escapeReferences) : ∃ rest, pair.1 = '&' :: rest ∧ '&' ∉ rest := by
  obtain ⟨begins, alone, -⟩ := escapeReferences_fit pair listed
  obtain ⟨rest, same⟩ := List.head?_eq_some_iff.1 begins
  rw [same] at alone
  exact ⟨rest, same, alone⟩

/-- A reference is found where it stands, whatever follows. -/
theorem find?_escapeReferences {pair : List Char × Char} (listed : pair ∈ escapeReferences)
    (rest : List Char) :
    (escapeReferences.find? fun other => other.1.isPrefixOf (pair.1 ++ rest)) = some pair := by
  cases found : escapeReferences.find? fun other => other.1.isPrefixOf (pair.1 ++ rest) with
  | none =>
      have missing := List.find?_eq_none.1 found pair listed
      exact absurd (List.isPrefixOf_iff_prefix.2 (List.prefix_append _ rest)) missing
  | some other =>
      have otherListed := List.mem_of_find?_eq_some found
      have begins := List.find?_some found
      rw [List.isPrefixOf_iff_prefix] at begins
      rcases List.prefix_or_prefix_of_prefix begins (List.prefix_append pair.1 rest) with
        shorter | longer
      · rw [escapeReferences_apart other otherListed pair listed shorter]
      · rw [escapeReferences_apart pair listed other otherListed longer]

/-- No reference stands where a text does not begin with an ampersand. -/
theorem find?_escapeReferences_of_ne {c : Char} (unreferenced : c ≠ '&') (rest : List Char) :
    (escapeReferences.find? fun other => other.1.isPrefixOf (c :: rest)) = none := by
  rw [List.find?_eq_none]
  intro pair listed begins
  obtain ⟨tail, same, -⟩ := exists_cons_of_mem_escapeReferences listed
  rw [same, List.isPrefixOf_iff_prefix, List.cons_prefix_cons] at begins
  exact unreferenced begins.1.symm

/-- A text is found again by putting the references in its escaped form in place of which they
stand. -/
theorem unescape_escape (quote : Char) (text : List Char) : unescape (escape quote text) = text := by
  induction text with
  | nil => rw [escape_nil, unescape]
  | cons c text ih =>
      rw [escape_cons]
      rcases escapeCharacter_reads quote c with ⟨written, plain⟩ | referenced
      · rw [written, List.singleton_append, unescape,
          find?_escapeReferences_of_ne plain.unreferenced]
        dsimp only
        rw [ih]
      · have listed := List.mem_of_mem_filter referenced.mem
        obtain ⟨rest, same, -⟩ := exists_cons_of_mem_escapeReferences listed
        have found := find?_escapeReferences listed (escape quote text)
        dsimp only at same found
        rw [same, List.cons_append] at found
        rw [same, List.cons_append, unescape, found]
        dsimp only
        rw [List.length_cons, Nat.add_sub_cancel, List.drop_left, ih]

/-- Each ampersand in an escaped text begins one of the references. -/
theorem escape_ampersand {quote : Char} {text front behind : List Char}
    (split : escape quote text = front ++ '&' :: behind) :
    ∃ pair ∈ referencesBetween quote, pair.1 <+: '&' :: behind := by
  induction text generalizing front with
  | nil => cases front <;> cases split
  | cons c text ih =>
      rw [escape_cons, List.append_eq_append_iff] at split
      rcases split with ⟨later, -, rest⟩ | ⟨rest, written, same⟩
      · exact ih rest
      cases rest with
      | nil => exact @ih [] same.symm
      | cons d rest =>
          -- The ampersand stands in what is written for the first character.
          obtain ⟨rfl, rfl⟩ := List.cons.inj same
          rcases escapeCharacter_reads quote c with ⟨itself, plain⟩ | referenced
          · rw [written, List.append_eq_singleton_iff] at itself
            rcases itself with ⟨-, same⟩ | ⟨-, same⟩
            · exact absurd (List.cons.inj same).1.symm plain.unreferenced
            · cases same
          · obtain ⟨tail, begins, alone⟩ :=
              exists_cons_of_mem_escapeReferences (List.mem_of_mem_filter referenced.mem)
            dsimp only at begins
            refine ⟨_, referenced.mem, ?_⟩
            cases front with
            | nil =>
                rw [written]
                exact ⟨escape quote text, by simp⟩
            | cons e front =>
                rw [written, List.cons_append, List.cons.injEq] at begins
                exact absurd (begins.2 ▸ List.mem_append_right front List.mem_cons_self) alone

/-- Escaping is undone for the same quote only by the text itself. -/
theorem escape_injective {quote : Char} {text other : List Char}
    (same : escape quote text = escape quote other) : text = other := by
  rw [← unescape_escape quote text, same, unescape_escape]

/-- No bracket, blank or quote of its own kind stays in an escaped text. -/
theorem not_mem_escape_of_special {quote c : Char} (text : List Char)
    (special : c ∈ ['<', '\t', '\n', '\r'] ∨ c = quote ∧ (quote = '\'' ∨ quote = '"')) :
    c ∉ escape quote text := by
  intro member
  obtain ⟨d, -, written⟩ := List.mem_flatMap.1 member
  rcases escapeCharacter_reads quote d with ⟨itself, plain⟩ | referenced
  · rw [itself, List.mem_singleton] at written
    subst written
    rcases special with blank | ⟨rfl, quoted⟩
    · have unblank := plain.unblank
      have unbracketed := plain.unbracketed
      simp_all
    · exact plain.unquoted quoted rfl
  · obtain ⟨-, -, absent⟩ := escapeReferences_fit _ (List.mem_of_mem_filter referenced.mem)
    refine absent c ?_ written
    rcases special with blank | ⟨rfl, rfl | rfl⟩
    · simp only [List.mem_cons, List.not_mem_nil] at blank ⊢
      tauto
    · decide
    · decide

end RunSigning.Markup

namespace RunSigning
open RunSigning.Text RunSigning.Markup

/-- An empty element whose only attribute has an escaped value. -/
def valueElement (quote : Char) (quoted : quote = '\'' ∨ quote = '"') (value : String)
    (allowed : AllAllowed value.toList) : PlainElement where
  name := .ofText "a" (by decide +kernel) (by decide +kernel) (by decide)
  attributes :=
    [⟨.ofText "v" (by decide +kernel) (by decide +kernel) (by decide), quote, value, quoted, allowed⟩]
  inner := .nil
  isShort := true
  distinct := List.pairwise_singleton _ _
  unfilled _ := rfl

/-- The text of a document whose root element has one value, written as it stands. -/
def valueText (quote : Char) (written : String) : String :=
  "<a v=" ++ String.singleton quote ++ written ++ String.singleton quote ++ "/>"

theorem render_valueElement {quote : Char} (quoted : quote = '\'' ∨ quote = '"') {value : String}
    (allowed : AllAllowed value.toList) :
    String.ofList (valueElement quote quoted value allowed).source.render =
      valueText quote (escapeString quote value) := by
  rw [← String.toList_inj]
  simp [PlainElement.render_source, PlainElement.render_tag, valueElement, valueText,
    EscapedAttribute.render_source, escapeString, PlainName.ofText]

/-- A document may hold any text as a value if it may hold its characters. -/
theorem exists_document_of_escape {quote : Char} (quoted : quote = '\'' ∨ quote = '"')
    {value : String} (allowed : AllAllowed value.toList) :
    ∃ document root, Document.ofText (valueText quote (escapeString quote value)) = .ok document ∧
      document.tree.root? = some root ∧
      (root.attribute? "v").map Attribute.value = some value := by
  obtain ⟨reading, reads, describes⟩ :=
    @PlainElement.exists_reads (valueElement quote quoted value allowed) [] _ (.nil [] 0)
  have separated : (valueElement quote quoted value allowed).source.inner.Separated := by
    rw [PlainElement.inner_source]
    trivial
  have parses := reads.parse separated
  rw [render_valueElement] at parses
  refine ⟨⟨_, _, parses⟩, reading 0, Document.ofText_eq_ok_iff.2 rfl,
    DocumentSource.root?_tree _ _, ?_⟩
  rw [(describes 0).1.attribute?]
  rfl

/-- Escaping is undone by reading, for either quote, and by putting each reference in place of
which it stands. An escaped text holds no bracket, tab, line feed, carriage return or quote of its
own kind, and each ampersand in it begins one of the references written between such quotes. -/
theorem escape_undone (quote : Char) (text : String) :
    (quote = '\'' ∨ quote = '"' → AllAllowed text.toList →
      ∃ document root, Document.ofText (valueText quote (escapeString quote text)) = .ok document ∧
        document.tree.root? = some root ∧
        (root.attribute? "v").map Attribute.value = some text) ∧
    (∀ c ∈ (escapeString quote text).toList, c ≠ '<' ∧ c ≠ '\t' ∧ c ≠ '\n' ∧ c ≠ '\r') ∧
    (quote = '\'' ∨ quote = '"' → quote ∉ (escapeString quote text).toList) ∧
    (∀ front behind, (escapeString quote text).toList = front ++ '&' :: behind →
      ∃ pair ∈ referencesBetween quote, pair.1 <+: '&' :: behind) ∧
    unescape (escapeString quote text).toList = text.toList ∧
    ∀ other, escapeString quote other = escapeString quote text → other = text := by
  have written (text : String) :
      (escapeString quote text).toList = escape quote text.toList := String.toList_ofList
  rw [written]
  refine ⟨fun quoted => exists_document_of_escape quoted, fun c member => ?_, fun quoted => ?_,
    fun _ _ => escape_ampersand, unescape_escape quote text.toList, fun other same => ?_⟩
  · refine ⟨?_, ?_, ?_, ?_⟩ <;> rintro rfl
    all_goals exact not_mem_escape_of_special _ (.inl (by decide)) member
  · exact not_mem_escape_of_special _ (.inr ⟨rfl, quoted⟩)
  · rw [← String.toList_inj, written, written] at same
    exact String.toList_inj.1 (escape_injective same)

/-- Text that looks like references and line breaks is read as it was. -/
theorem escape_undone_references : ('\'' = '\'' ∨ '\'' = '"') ∧ AllAllowed "&#xA;'\r\n\"".toList ∧
    ∃ document root,
      Document.ofText "<a v='&amp;#xA;&apos;&#xD;&#xA;\"'/>" = .ok document ∧
      document.tree.root? = some root ∧
      (root.attribute? "v").map Attribute.value = some "&#xA;'\r\n\"" := by
  have allowed : AllAllowed "&#xA;'\r\n\"".toList := by
    rw [AllAllowed]
    decide +kernel
  have written : valueText '\'' (escapeString '\'' "&#xA;'\r\n\"") =
      "<a v='&amp;#xA;&apos;&#xD;&#xA;\"'/>" := by decide +kernel
  have undone := (escape_undone '\'' "&#xA;'\r\n\"").1 (.inl rfl) allowed
  rw [written] at undone
  exact ⟨.inl rfl, allowed, undone⟩

end RunSigning
