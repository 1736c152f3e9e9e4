import RunSigning.Proofs.Recording.Store
import RunSigning.Proofs.Signing.Write
import RunSigning.Proofs.Text.Utf8

/-
This file signs again and again. The config of a run stores signatures: every declaration has the
signature that was written into it last.
-/

namespace RunSigning
open RunSigning.Text RunSigning.Markup

/-- A document is read back from its bytes. -/
theorem Document.ofBytes_bytes (document : Document) :
    Document.ofBytes document.bytes = .ok document := by
  rw [ofBytes, bytes, Utf8.decode_encode]
  dsimp only
  rw [String.ofList_toList]
  exact Document.ofText_eq_ok_iff.mpr rfl

/-- A document that takes the place of the config is loaded from there. -/
theorem FileTree.load_set {tree : FileTree} {path : Path} {loaded : Document} {location : Location}
    {file : File} (loads : tree.load path = .ok loaded) (traced : tree.trace path = .ok location)
    (held : tree.get? location = some (.file file)) (changed : Document) :
    (tree.set location (.file ⟨file.mode, changed.bytes, none⟩)).load path = .ok changed := by
  rw [load, read_set loads traced held]
  dsimp only
  rw [changed.ofBytes_bytes]

/-- A call of the signing of one binary, with the disk that it meets with. -/
structure SigningCall where
  context : SignContext
  binary : String
  disk : Disk

namespace SigningCall

def run (call : SigningCall) (runDirectory : Path) (tree : FileTree) : Signing :=
  call.context.sign tree call.disk runDirectory call.binary

/-- The signature that the signer gives when it is asked. -/
def answer (call : SigningCall) (runDirectory : Path) : Except Error String :=
  call.context.signer.sign (Layout.binary runDirectory call.binary) call.context.key

/-- What a call goes through if it signs. -/
theorem run_signed {call : SigningCall} {runDirectory : Path} {tree : FileTree} {name : String}
    {previous? : Option String} {signature : String} {changed : Document} {written : Bool}
    (signed : (call.run runDirectory tree).result =
      .ok (.signed name previous? signature changed written)) :
    name = call.binary ∧ call.answer runDirectory = .ok signature ∧
      ∃ document declaration, tree.load (Layout.config runDirectory) = .ok document ∧
        document.find? call.binary = some declaration ∧
        previous? = declaration.signatureValue? ∧
        document.recorded declaration signature = .ok changed := by
  rw [run, SignContext.sign] at signed
  split at signed
  · cases signed
  split at signed
  · cases signed
  rename_i document loads
  split at signed
  · rename_i declaration found
    rw [SignContext.ask] at signed
    split at signed
    · cases signed
    rename_i answered
    rw [SignContext.record] at signed
    split at signed
    · cases signed
    rename_i recorded
    dsimp only at signed
    split at signed
    · cases signed
      exact ⟨rfl, answered, document, declaration, loads, found, rfl, recorded⟩
    · split at signed
      · cases signed
      · cases signed
        exact ⟨rfl, answered, document, declaration, loads, found, rfl, recorded⟩
  · split at signed <;> cases signed

end SigningCall

/-- Whether the signing says that it wrote the config. -/
def Signing.isWritten (signing : Signing) : Bool :=
  match signing.result with
  | .ok (.signed _ _ _ _ written) => written
  | _ => false

theorem Signing.isWritten_iff {signing : Signing} :
    signing.isWritten = true ↔ ∃ name previous? signature document,
      signing.result = .ok (.signed name previous? signature document true) := by
  rw [isWritten]
  split
  · rename_i name previous? signature document written result
    simp [result]
  · rename_i other
    simp only [Bool.false_eq_true, false_iff, not_exists]
    exact fun name previous? signature document => other _ _ _ _ _

/-- What a declaration says once a signature is recorded in it, if one is. -/
def Markup.DeclarationView.signedWith (view : DeclarationView) : Option String → DeclarationView
  | none => view
  | some signature => { view with isSigned := true, signatureValue? := some signature }

theorem Markup.DeclarationView.signedWith_signedWith (view : DeclarationView)
    (first second : Option String) :
    (view.signedWith first).signedWith second = view.signedWith (second.or first) := by
  cases second <;> cases first <;> rfl

/-- The first declaration that a binary matches is told by the effective names. -/
theorem Document.findIndex?_eq (document : Document) (binary : String) :
    document.findIndex? binary = (document.declarations.map Declaration.effectiveName?).findIdx?
      (· == some binary) := by
  rw [findIndex?, List.findIdx?_map]
  rfl

/-- A declaration that is found stands at the index that is found. -/
theorem Document.exists_findIndex (document : Document) {binary : String}
    {declaration : Declaration} (found : document.find? binary = some declaration) :
    ∃ index, document.declarations[index]? = some declaration ∧
      document.findIndex? binary = some index := by
  obtain ⟨named, earlier, later, split, others⟩ := List.find?_eq_some_iff_append.mp found
  refine ⟨earlier.length, by simp [split], ?_⟩
  have none : earlier.findIdx? (·.matches binary) = none := by
    rw [List.findIdx?_eq_none_iff]
    simpa using others
  rw [findIndex?, split, List.findIdx?_append, none, List.findIdx?_cons, if_pos named]
  simp

/-- What one call does to the document in the config. -/
inductive SigningCall.Stores (call : SigningCall) (runDirectory : Path) (document : Document) :
    Bool → Document → Prop where
  | unwritten : call.Stores runDirectory document false document
  | written {index : Nat} {view : DeclarationView} {signature : String} {changed : Document}
      (found : document.findIndex? call.binary = some index)
      (answered : call.answer runDirectory = .ok signature)
      (before : (document.declarations.map Declaration.view)[index]? = some view)
      (after : changed.declarations.map Declaration.view =
        (document.declarations.map Declaration.view).set index
          { view with isSigned := true, signatureValue? := some signature }) :
      call.Stores runDirectory document true changed

theorem SigningCall.exists_stores {tree : FileTree} {runDirectory : Path} {document : Document}
    (loads : tree.load (Layout.config runDirectory) = .ok document) (store : document.IsStore)
    (call : SigningCall) :
    ∃ current, (call.run runDirectory tree).tree.load (Layout.config runDirectory) = .ok current ∧
      current.IsStore ∧
      call.Stores runDirectory document (call.run runDirectory tree).isWritten current := by
  cases call.context.effect_sign tree call.disk runDirectory call.binary with
  | unchanged kept unwritten =>
      have silent : (call.run runDirectory tree).isWritten = false := by
        rw [Bool.eq_false_iff, ne_eq, Signing.isWritten_iff]
        rintro ⟨name, previous?, signature, changed, signed⟩
        exact unwritten _ _ _ _ signed
      rw [silent, show (call.run runDirectory tree).tree = tree from kept]
      exact ⟨document, loads, store, .unwritten⟩
  | written loads' traced held signed changed =>
      obtain rfl := Except.ok.inj (loads.symm.trans loads')
      obtain ⟨-, answered, document', declaration, loads'', found, -, recorded⟩ :=
        @run_signed call _ _ _ _ _ _ _ signed
      obtain rfl := Except.ok.inj (loads.symm.trans loads'')
      obtain ⟨index, declared, first⟩ := document.exists_findIndex found
      obtain ⟨store', view, before, after⟩ := store.recorded declared recorded
      have spoken : (call.run runDirectory tree).isWritten = true :=
        Signing.isWritten_iff.mpr ⟨_, _, _, _, signed⟩
      rw [spoken, show (call.run runDirectory tree).tree = _ from changed]
      exact ⟨_, FileTree.load_set loads traced held _, store', .written first answered before after⟩

/-- Calls one after the other, each in the file tree that the one before leaves. -/
def signAll (runDirectory : Path) (tree : FileTree) : List SigningCall → FileTree × List Signing
  | [] => (tree, [])
  | call :: calls =>
      let signing := call.run runDirectory tree
      let (final, later) := signAll runDirectory signing.tree calls
      (final, signing :: later)

/-- The answer to the last call that wrote and whose binary is first matched by the declaration at
an index. -/
def Document.lastWritten? (document : Document) (runDirectory : Path) (index : Nat)
    (runs : List (SigningCall × Signing)) : Option String :=
  runs.reverse.findSome? fun (call, signing) =>
    if signing.isWritten = true ∧ document.findIndex? call.binary = some index then
      (call.answer runDirectory).toOption
    else none

/-- No call changes what the declarations are called. -/
theorem SigningCall.Stores.findIndex?_eq {call : SigningCall} {runDirectory : Path} {written : Bool}
    {document current : Document} (stores : call.Stores runDirectory document written current)
    (binary : String) : current.findIndex? binary = document.findIndex? binary := by
  cases stores with
  | unwritten => rfl
  | @written index view signature changed found answered before after =>
      have names (document : Document) : document.declarations.map Declaration.effectiveName? =
          (document.declarations.map Declaration.view).map (·.effectiveName?) := by
        rw [List.map_map]
        rfl
      have kept : ((document.declarations.map Declaration.view).map (·.effectiveName?))[index]? =
          some view.effectiveName? := by
        rw [List.getElem?_map, before]
        rfl
      obtain ⟨small, equal⟩ := List.getElem?_eq_some_iff.mp kept
      rw [Document.findIndex?_eq, Document.findIndex?_eq, names current, after, List.map_set,
        names document, ← equal, List.set_getElem_self small]

/-- What calls did last: the first of them counts if no later one does. -/
theorem Document.lastWritten?_cons (document : Document) (runDirectory : Path) (index : Nat)
    (call : SigningCall) (signing : Signing) (later : List (SigningCall × Signing)) :
    document.lastWritten? runDirectory index ((call, signing) :: later) =
      (document.lastWritten? runDirectory index later).or
        (if signing.isWritten = true ∧ document.findIndex? call.binary = some index then
          (call.answer runDirectory).toOption else none) := by
  rw [lastWritten?, List.reverse_cons, List.findSome?_append, List.findSome?_singleton]
  rfl

/-- After one call every declaration says what it said, with the answer to the call if the call
wrote it there. -/
theorem SigningCall.Stores.view_eq {call : SigningCall} {runDirectory : Path} {written : Bool}
    {document current : Document} (stores : call.Stores runDirectory document written current)
    {index : Nat} {view : DeclarationView}
    (found : (document.declarations.map Declaration.view)[index]? = some view) :
    (current.declarations.map Declaration.view)[index]? = some (view.signedWith
      (if written = true ∧ document.findIndex? call.binary = some index then
        (call.answer runDirectory).toOption else none)) := by
  cases stores with
  | unwritten => simpa [DeclarationView.signedWith] using found
  | @written place old signature changed first answered before after =>
      rw [after, first, answered]
      by_cases here : place = index
      · subst here
        obtain rfl := Option.some.inj (before.symm.trans found)
        rw [List.getElem?_set_self (List.getElem?_eq_some_iff.mp before).1, if_pos ⟨rfl, rfl⟩]
        rfl
      · rw [List.getElem?_set_ne here, found, if_neg (by simp [here])]
        rfl

theorem SigningCall.Stores.length_eq {call : SigningCall} {runDirectory : Path} {written : Bool}
    {document current : Document} (stores : call.Stores runDirectory document written current) :
    current.declarations.length = document.declarations.length := by
  cases stores with
  | unwritten => rfl
  | written found answered before after =>
      have lengths := congrArg List.length after
      simpa using lengths

/-- After all calls the config is a store, and every declaration says what it said, with the answer
to the last call that wrote it there. -/
theorem exists_store_signAll {tree : FileTree} {runDirectory : Path} {document : Document}
    (loads : tree.load (Layout.config runDirectory) = .ok document) (store : document.IsStore)
    (calls : List SigningCall) :
    ∃ current, (signAll runDirectory tree calls).1.load (Layout.config runDirectory) =
        .ok current ∧ current.declarations.length = document.declarations.length ∧
      ∀ {index : Nat} {view : DeclarationView},
        (document.declarations.map Declaration.view)[index]? = some view →
          (current.declarations.map Declaration.view)[index]? = some (view.signedWith
            (document.lastWritten? runDirectory index
              (calls.zip (signAll runDirectory tree calls).2))) := by
  induction calls generalizing tree document with
  | nil => exact ⟨document, loads, rfl, fun found => found⟩
  | cons call calls ih =>
      obtain ⟨next, loads', store', stores⟩ := call.exists_stores loads store
      obtain ⟨current, loads'', length, views⟩ := ih loads' store'
      refine ⟨current, loads'', length.trans stores.length_eq, ?_⟩
      intro index view found
      have later := views (stores.view_eq found)
      have same (runs : List (SigningCall × Signing)) : next.lastWritten? runDirectory index runs =
          document.lastWritten? runDirectory index runs := by
        simp only [Document.lastWritten?, stores.findIndex?_eq]
      rw [same, DeclarationView.signedWith_signedWith] at later
      rw [later, signAll, List.zip_cons_cons, Document.lastWritten?_cons]

/-- The config of a run is a store of signatures. Take a file tree whose config has no document
type declaration, only unqualified start declarations, and values that fit. After any calls it
still has the same declarations under the same names, and the signature of each is the answer of
the signer to the last call that wrote it there, or the old one if there was none. A call that
signs says what the declaration held before. -/
theorem signAll_stores {tree : FileTree} {runDirectory : Path} {document : Document}
    (loads : tree.load (Layout.config runDirectory) = .ok document)
    (plain : document.tree.hasDoctype = false)
    (unqualified : ∀ declaration ∈ document.declarations,
      declaration.element.tag.name.qualifier = "")
    (fits : ∀ declaration ∈ document.declarations, document.ValueFits declaration)
    (calls : List SigningCall) :
    let run := signAll runDirectory tree calls
    ∃ current, run.1.load (Layout.config runDirectory) = .ok current ∧
      current.declarations.length = document.declarations.length ∧
      (∀ index (view : DeclarationView),
          (document.declarations.map Declaration.view)[index]? = some view →
        (current.declarations.map Declaration.view)[index]? = some (view.signedWith
          (document.lastWritten? runDirectory index (calls.zip run.2)))) ∧
      ∀ (call : SigningCall) name previous? signature changed written,
        (call.run runDirectory run.1).result =
            .ok (.signed name previous? signature changed written) →
          name = call.binary ∧ call.answer runDirectory = .ok signature ∧
          ∃ declaration, current.find? call.binary = some declaration ∧
            previous? = declaration.signatureValue? := by
  obtain ⟨current, loads', length, views⟩ :=
    exists_store_signAll loads (Document.isStore plain unqualified fits) calls
  refine ⟨current, loads', length, fun index view found => views found, ?_⟩
  intro call name previous? signature changed written signed
  obtain ⟨named, answered, loaded, declaration, loads'', found, previous, -⟩ :=
    SigningCall.run_signed signed
  obtain rfl := Except.ok.inj (loads'.symm.trans loads'')
  exact ⟨named, answered, declaration, found, previous⟩

/-- A run directory with a config. -/
def sampleRun : FileTree where
  current := []
  entries := [(["run"], .directory), (["run", "genode"], .directory),
    (["run", "genode", "config"], .file ⟨0o644, sampleConfig.bytes, none⟩)]

theorem load_sampleRun : sampleRun.load (Layout.config ⟨"run"⟩) = .ok sampleConfig := by
  have bytes : sampleRun.read (Layout.config ⟨"run"⟩) = .ok sampleConfig.bytes := by rfl
  rw [FileTree.load, bytes]
  dsimp only
  rw [sampleConfig.ofBytes_bytes]

/-- A call that writes into the second declaration. -/
def sampleCall : SigningCall := ⟨.ofSigner (.constant (.ok "\t")), "b", .standard⟩

theorem signAll_stores_sampleRun :
    ∃ current, (signAll ⟨"run"⟩ sampleRun [sampleCall]).1.load (Layout.config ⟨"run"⟩) =
        .ok current ∧
      (current.declarations.map Declaration.view)[1]? =
        some ⟨some "b", none, some "b", true, some "\t"⟩ := by
  have stores := signAll_stores load_sampleRun (by decide +kernel) (by decide +kernel)
    (by decide +kernel) [sampleCall]
  obtain ⟨current, loads, -, views, -⟩ := stores
  have found : (sampleConfig.declarations.map Declaration.view)[1]? =
      some ⟨some "b", none, some "b", false, none⟩ := by decide +kernel
  have answer : sampleConfig.lastWritten? ⟨"run"⟩ 1
      ([sampleCall].zip (signAll ⟨"run"⟩ sampleRun [sampleCall]).2) = some "\t" := by
    decide +kernel
  have view := views 1 _ found
  rw [answer] at view
  exact ⟨current, loads, view⟩

end RunSigning
