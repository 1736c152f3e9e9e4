import Mathlib.Logic.Function.Basic
import RunSigning.Proofs.Signing.Draft
import RunSigning.Proofs.Signing.Run

/-
This file lets signings of one config run at the same time. Each loads the config in one step and
replaces it in a later one, and nothing keeps the others from doing so in between. A write may undo
the writes since the load, but the config always holds what a chain of whole signings makes of it.
-/

namespace RunSigning

/-- One of the signings that run at the same time. -/
structure Party where
  call : SigningCall
  runDirectory : Path

namespace Party

variable (party : Party)

def config : Path := Layout.config party.runDirectory

/-- The first step gives the document to sign, unless the signing fails before it has one. -/
def begin (tree : FileTree) : Option Document :=
  if party.call.binary = "" then none else (tree.load party.config).toOption

/-- The second step does the rest with that document, whatever the config holds by then. -/
def finish (tree : FileTree) (document : Document) : Signing :=
  party.call.context.proceed tree party.call.disk party.runDirectory party.call.binary document

/-- The document with the signature of this party recorded in it, if that succeeds. -/
def upsert? (document : Document) : Option Document :=
  match party.call.context.draft? party.runDirectory party.call.binary document with
  | some (.ok draft) => some draft.document
  | _ => none

end Party

/-- How far a party has come. -/
inductive Phase where
  | waiting
  | holding (document : Document)
  | done

/-- Parties at work in a file tree, and those that have written, in the order of their writes. -/
structure Scene (Name : Type) where
  tree : FileTree
  phase : Name → Phase
  writers : List Name

/-- At the start no party has done anything. -/
def Scene.start (Name : Type) (tree : FileTree) : Scene Name := ⟨tree, fun _ => .waiting, []⟩

section
variable {Name : Type} [DecidableEq Name] (party : Name → Party)

/-- The party of the given name takes its next step, if it has one left. -/
def Scene.step (scene : Scene Name) (name : Name) : Scene Name :=
  match scene.phase name with
  | .waiting =>
      let next := match (party name).begin scene.tree with
        | some document => Phase.holding document
        | none => .done
      { scene with phase := Function.update scene.phase name next }
  | .holding document =>
      let signing := (party name).finish scene.tree document
      ⟨signing.tree, Function.update scene.phase name .done,
        if signing.isWritten then scene.writers ++ [name] else scene.writers⟩
  | .done => scene

/-- Parties take steps in the order of a schedule, which is any interleaving of them. -/
def Scene.run (scene : Scene Name) (schedule : List Name) : Scene Name :=
  schedule.foldl (Scene.step party) scene

/-- The document after the signatures of some parties are recorded in it, one after the other. -/
def Document.upsertAll? (document : Document) (names : List Name) : Option Document :=
  names.foldlM (fun document name => (party name).upsert? document) document

omit [DecidableEq Name] in
theorem Document.upsertAll?_append_singleton {initial document : Document} {names : List Name}
    (chain : initial.upsertAll? party names = some document) (name : Name) :
    initial.upsertAll? party (names ++ [name]) = (party name).upsert? document := by
  rw [upsertAll?] at chain ⊢
  rw [List.foldlM_append, chain]
  simp

end

theorem Party.begin_eq_some {party : Party} {tree : FileTree} {document : Document}
    (begun : party.begin tree = some document) :
    party.call.binary ≠ "" ∧ tree.load party.config = .ok document := by
  rw [begin] at begun
  split at begun
  · cases begun
  · rename_i named
    cases loads : tree.load party.config with
    | error error => simp [loads, Except.toOption] at begun
    | ok loaded => exact ⟨named, by simpa [loads, Except.toOption] using begun⟩

/-- The two steps in a row are the signing. -/
theorem Party.sign_eq_finish (party : Party) {tree : FileTree} {document : Document}
    (begun : party.begin tree = some document) :
    party.call.run party.runDirectory tree = party.finish tree document := by
  obtain ⟨named, loads⟩ := begin_eq_some begun
  exact SignContext.sign_eq_proceed _ named loads

/-- A signing that gets no document leaves the file tree as it was. -/
theorem Party.sign_tree_of_begin_eq_none (party : Party) {tree : FileTree}
    (begun : party.begin tree = none) :
    (party.call.run party.runDirectory tree).tree = tree := by
  rw [begin] at begun
  split at begun
  · rename_i unnamed
    rw [SigningCall.run, unnamed, SignContext.sign_empty]
  · rename_i named
    cases loads : tree.load party.config with
    | error error =>
        rw [SigningCall.run, SignContext.sign_load_error _ named loads]
    | ok loaded => simp [loads, Except.toOption] at begun

/-- The file at the place of the config holds the document that a party gets from it. -/
theorem Party.ofBytes_of_begin (party : Party) {tree : FileTree} {document : Document}
    {location : Location} {file : File} (traced : tree.trace party.config = .ok location)
    (held : tree.get? location = some (.file file)) (begun : party.begin tree = some document) :
    Document.ofBytes file.content = .ok document := by
  obtain ⟨-, loads⟩ := begin_eq_some begun
  obtain ⟨location', file', -, traced', held', -, spelled⟩ := FileTree.exists_file_of_load loads
  obtain rfl := Except.ok.inj (traced.symm.trans traced')
  obtain rfl := Entry.file.inj (Option.some.inj (held.symm.trans held'))
  exact spelled

/-- What the second step does: nothing, or the config takes the document that the party makes of
its own. -/
theorem Party.finish_cases (party : Party) {tree : FileTree} {location : Location} {file : File}
    (traced : tree.trace party.config = .ok location)
    (held : tree.get? location = some (.file file)) (document : Document) :
    (party.finish tree document).tree = tree ∧ (party.finish tree document).isWritten = false ∨
    ∃ changed, party.upsert? document = some changed ∧
      (party.finish tree document).tree =
        tree.set location (.file ⟨file.mode, changed.bytes, none⟩) ∧
      (party.finish tree document).isWritten = true := by
  have concluded := party.call.context.proceed_eq_conclude tree party.call.disk
    party.runDirectory party.call.binary document
  rw [Party.upsert?]
  rw [Party.config] at traced
  rw [← Party.finish] at concluded
  cases drafted : party.call.context.draft? party.runDirectory party.call.binary document with
  | none =>
      rw [drafted, SignContext.conclude, Prod.mk.injEq] at concluded
      obtain ⟨result, kept⟩ := concluded
      refine .inl ⟨kept, ?_⟩
      rw [Signing.isWritten, result]
      split <;> rename_i equal
      · split at equal <;> cases equal
      · rfl
  | some outcome =>
      cases outcome with
      | error error =>
          rw [drafted, SignContext.conclude, Prod.mk.injEq] at concluded
          obtain ⟨result, kept⟩ := concluded
          exact .inl ⟨kept, by rw [Signing.isWritten, result]⟩
      | ok draft =>
          rw [drafted, SignContext.conclude, FileTree.save,
            FileTree.write_of_file traced held] at concluded
          split at concluded
          · obtain ⟨result, kept⟩ := Prod.mk.inj concluded
            exact .inl ⟨kept, by rw [Signing.isWritten, result]; rfl⟩
          cases obstructed : tree.obstacle? party.call.disk location with
          | some error =>
              rw [obstructed] at concluded
              obtain ⟨result, kept⟩ := Prod.mk.inj concluded
              exact .inl ⟨kept, by rw [Signing.isWritten, result]⟩
          | none =>
              rw [obstructed] at concluded
              obtain ⟨result, changed⟩ := Prod.mk.inj concluded
              exact .inr ⟨draft.document, rfl, changed, by rw [Signing.isWritten, result]; rfl⟩

section
variable {Name : Type} (party : Name → Party) (initial : Document) (location : Location)

/-- A document that some of those who have written make of the initial one, in the order of their
writes. -/
def Scene.Makes (scene : Scene Name) (document : Document) (names : List Name) : Prop :=
  initial.upsertAll? party names = some document ∧ names.Sublist scene.writers

/-- What holds whenever parties sign the config at one location. -/
structure Scene.Sound (scene : Scene Name) : Prop where
  traced : ∀ name, scene.tree.trace (party name).config = .ok location
  file : ∃ file document names, scene.tree.get? location = some (.file file) ∧
    Document.ofBytes file.content = .ok document ∧ scene.Makes party initial document names ∧
    names.getLast? = scene.writers.getLast?
  held : ∀ name document, scene.phase name = .holding document →
    ∃ names, scene.Makes party initial document names

variable {party initial location}

theorem Scene.sound_start {tree : FileTree} {file : File}
    (traced : ∀ name, tree.trace (party name).config = .ok location)
    (held : tree.get? location = some (.file file))
    (accepted : Document.ofBytes file.content = .ok initial) :
    (Scene.start Name tree).Sound party initial location where
  traced := traced
  file := ⟨file, initial, [], held, accepted, ⟨rfl, List.nil_sublist _⟩, rfl⟩
  held := by
    intro name document holding
    cases holding

variable [DecidableEq Name]

/-- A party that loads the config holds the document that stands there. -/
theorem Scene.Sound.load {scene : Scene Name} (sound : scene.Sound party initial location)
    {name : Name} (waiting : scene.phase name = .waiting) :
    (scene.step party name).Sound party initial location := by
  obtain ⟨file, current, names, held, accepted, made, final⟩ := sound.file
  rw [Scene.step, waiting]
  refine ⟨sound.traced, ⟨file, current, names, held, accepted, made, final⟩, ?_⟩
  intro other document holding
  by_cases here : other = name
  · subst here
    cases begun : (party other).begin scene.tree with
    | none => simp [begun] at holding
    | some loaded =>
        obtain rfl : loaded = document := by simpa [begun] using holding
        have read := (party other).ofBytes_of_begin (sound.traced other) held begun
        obtain rfl := Except.ok.inj (accepted.symm.trans read)
        exact ⟨names, made⟩
  · exact sound.held other document (by simpa [here] using holding)

/-- A party that writes puts there what it makes of the document that it loaded, and so ends the
chain of that one. -/
theorem Scene.Sound.write {scene : Scene Name} (sound : scene.Sound party initial location)
    {name : Name} {loaded : Document} (holds : scene.phase name = .holding loaded) :
    (scene.step party name).Sound party initial location := by
  obtain ⟨file, current, names, held, accepted, made, final⟩ := sound.file
  obtain ⟨stale, chain, earlier⟩ := sound.held name loaded holds
  have others {writers : List Name} (grown : scene.writers.Sublist writers) (other : Name)
      (document : Document)
      (holding : Function.update scene.phase name .done other = .holding document) :
      ∃ names, initial.upsertAll? party names = some document ∧ names.Sublist writers := by
    by_cases here : other = name
    · simp [here] at holding
    · obtain ⟨names, made⟩ := sound.held other document (by simpa [here] using holding)
      exact ⟨names, made.1, made.2.trans grown⟩
  rw [Scene.step, holds]
  dsimp only
  rcases (party name).finish_cases (sound.traced name) held loaded with
    ⟨kept, silent⟩ | ⟨changed, upserted, replaced, spoken⟩
  · rw [kept, if_neg (by simp [silent])]
    exact ⟨sound.traced, ⟨file, current, names, held, accepted, made, final⟩,
      others (List.Sublist.refl _)⟩
  · rw [replaced, if_pos spoken]
    refine ⟨?_, ⟨⟨file.mode, changed.bytes, none⟩, changed, stale ++ [name], ?_,
      changed.ofBytes_bytes, ⟨?_, ?_⟩, ?_⟩, others (List.sublist_append_left _ _)⟩
    · intro other
      exact ((FileTree.alike_set held _).trace_eq _).trans (sound.traced other)
    · rw [FileTree.get?_set _ _ _ (FileTree.ne_nil_of_file held), if_pos rfl]
    · rw [Document.upsertAll?_append_singleton party chain, upserted]
    · exact earlier.append (List.Sublist.refl _)
    · simp

/-- One step keeps the config sound. -/
theorem Scene.Sound.step {scene : Scene Name} (sound : scene.Sound party initial location)
    (name : Name) : (scene.step party name).Sound party initial location := by
  cases phase : scene.phase name with
  | waiting => exact sound.load phase
  | holding document => exact sound.write phase
  | done =>
      rw [Scene.step, phase]
      exact sound

/-- Every run keeps the config sound. -/
theorem Scene.Sound.run {scene : Scene Name} (sound : scene.Sound party initial location)
    (schedule : List Name) : (scene.run party schedule).Sound party initial location := by
  induction schedule generalizing scene with
  | nil => exact sound
  | cons name schedule ih => exact ih (sound.step name)

/-- Who has written is done, and has written once. -/
structure Scene.Orderly (scene : Scene Name) : Prop where
  once : scene.writers.Nodup
  finished : ∀ name ∈ scene.writers, scene.phase name = .done

theorem Scene.Orderly.step {scene : Scene Name} (orderly : scene.Orderly) (name : Name) :
    (scene.step party name).Orderly := by
  have finished (next : Phase) (active : scene.phase name ≠ .done) :
      ∀ other ∈ scene.writers, Function.update scene.phase name next other = .done := by
    intro other wrote
    have done := orderly.finished other wrote
    rw [Function.update_of_ne, done]
    rintro rfl
    exact active done
  rw [Scene.step]
  split
  · rename_i waiting
    exact ⟨orderly.once, finished _ (by simp [waiting])⟩
  · rename_i document holding
    have active : scene.phase name ≠ .done := by simp [holding]
    dsimp only
    split
    · refine ⟨?_, ?_⟩
      · rw [List.nodup_append]
        refine ⟨orderly.once, by simp, ?_⟩
        rintro other wrote last here rfl
        exact active (List.mem_singleton.mp here ▸ orderly.finished other wrote)
      · intro other wrote
        rcases List.mem_append.mp wrote with earlier | last
        · exact finished _ active other earlier
        · rw [List.mem_singleton.mp last]
          exact Function.update_self name Phase.done scene.phase
    · exact ⟨orderly.once, finished _ active⟩
  · exact orderly

theorem Scene.Orderly.run {scene : Scene Name} (orderly : scene.Orderly) (schedule : List Name) :
    (scene.run party schedule).Orderly := by
  induction schedule generalizing scene with
  | nil => exact orderly
  | cons name schedule ih => exact ih (orderly.step name)

/-- Signings of one config never mix. Take any parties whose configs are the same file, and any
interleaving of their loads and writes from an accepted document. Then the file holds an accepted
document, and so does every party that has loaded one and not yet finished: what the signings of
some of those who have written make of the initial document, one after the other in the order of
their writes. For the file, the last of these is the last who wrote. A schedule may end after any
step, so this is true of every text that the file ever holds and of every one that is loaded. -/
theorem Scene.run_unmixed {tree : FileTree} {file : File}
    (traced : ∀ name, tree.trace (party name).config = .ok location)
    (held : tree.get? location = some (.file file))
    (accepted : Document.ofBytes file.content = .ok initial) (schedule : List Name) :
    let scene := (Scene.start Name tree).run party schedule
    scene.writers.Nodup ∧
    (∃ file document names, scene.tree.get? location = some (.file file) ∧
      Document.ofBytes file.content = .ok document ∧
      initial.upsertAll? party names = some document ∧ names.Sublist scene.writers ∧
      names.getLast? = scene.writers.getLast?) ∧
    ∀ name document, scene.phase name = .holding document →
      ∃ names, initial.upsertAll? party names = some document ∧ names.Sublist scene.writers := by
  have orderly : (Scene.start Name tree).Orderly := ⟨List.nodup_nil, by simp [Scene.start]⟩
  have sound := (Scene.sound_start traced held accepted).run schedule
  obtain ⟨file, document, names, held', accepted', made, final⟩ := sound.file
  exact ⟨(orderly.run schedule).once,
    ⟨file, document, names, held', accepted', made.1, made.2, final⟩, sound.held⟩

end

/-- Two parties that sign the two declarations of one config. -/
def sampleParties : Bool → Party
  | false => ⟨⟨.ofSigner (.constant (.ok "new")), "a", .standard⟩, ⟨"run"⟩⟩
  | true => ⟨sampleCall, ⟨"run"⟩⟩

/-- The second party loads the config before the first has replaced it, and replaces it later. -/
theorem Scene.run_unmixed_sampleParties :
    let scene := (Scene.start Bool sampleRun).run sampleParties [false, true, false, true]
    (∀ name, sampleRun.trace (sampleParties name).config = .ok ["run", "genode", "config"]) ∧
    scene.writers = [false, true] ∧ scene.writers.Nodup ∧
    ∃ file document names, scene.tree.get? ["run", "genode", "config"] = some (.file file) ∧
      Document.ofBytes file.content = .ok document ∧
      sampleConfig.upsertAll? sampleParties names = some document ∧
      names.Sublist scene.writers ∧ names.getLast? = scene.writers.getLast? := by
  have traced (name : Bool) :
      sampleRun.trace (sampleParties name).config = .ok ["run", "genode", "config"] := by
    cases name <;> rfl
  have held : sampleRun.get? ["run", "genode", "config"] =
      some (.file ⟨0o644, sampleConfig.bytes, none⟩) := rfl
  obtain ⟨once, file, -⟩ :=
    Scene.run_unmixed traced held sampleConfig.ofBytes_bytes [false, true, false, true]
  exact ⟨traced, by decide +kernel, once, file⟩

end RunSigning
