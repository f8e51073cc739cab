import MappingTables.Proofs.Files.FileStore
import MappingTables.Proofs.Java.Launcher
import MappingTables.Proofs.Namespaces
import MappingTables.Proofs.Remap.Classpath
import MappingTables.Remap.ProgramEngine

/-!
# Sessions that run a program

A session over an engine that runs a program starts it with what was read before: the only input for
the tag, and the whole classpath. Both are spread over the session, which hands each path over once
and refuses inputs that come too late, and the engine, which keeps them.

* `inputsIn`, `classpathIn`: what the history of a session says.
* `ProgramEngine.Reaches`: what a session over such an engine comes to.
* `ProgramEngine.Remembers`: the session and its engine together know what the history says.
* `ProgramEngine.remap_of_reaches`: what is started, and what is left in the end.
* `ProgramEngine.remap_unstartable`: when nothing can be started.
-/

namespace MappingTables.Remap

open Step Text

/-! ## Paths, each of them once -/

/-- The paths without those that were there before. -/
def firstOccurrences : List String → List String
  | [] => []
  | p :: rest => p :: (firstOccurrences rest).filter fun q => Path.form q ≠ Path.form p

/-- The `freshPaths` are those that were not seen, each of them once. -/
theorem freshPaths_eq_filter (seen : List Path.Form) (paths : List String) :
    freshPaths seen paths = (firstOccurrences paths).filter fun p => Path.form p ∉ seen := by
  induction paths generalizing seen with
  | nil => rfl
  | cons p rest ih =>
    rw [freshPaths, firstOccurrences, List.filter_cons, List.filter_filter]
    split
    · next hseen =>
      rw [if_neg (by simpa using hseen), ih]
      refine List.filter_congr fun q _ => ?_
      by_cases hq : Path.form q = Path.form p <;> simp [hq, hseen]
    · next hseen =>
      rw [if_pos (by simpa using hseen), ih]
      refine congrArg _ (List.filter_congr fun q _ => ?_)
      simp [Bool.and_comm]

theorem mem_form_firstOccurrences {paths : List String} {form : Path.Form} :
    form ∈ (firstOccurrences paths).map Path.form ↔ form ∈ paths.map Path.form := by
  have hfresh : freshPaths [] paths = firstOccurrences paths := by
    rw [freshPaths_eq_filter]
    simp
  rw [← hfresh, mem_form_freshPaths, and_iff_left List.not_mem_nil]

/-- Of `later` paths the `firstOccurrences` are those that are not among the `earlier` ones. -/
theorem firstOccurrences_append (earlier later : List String) :
    firstOccurrences (earlier ++ later) = firstOccurrences earlier ++
      freshPaths ((firstOccurrences earlier).map Path.form) later := by
  have hfresh : freshPaths ((firstOccurrences earlier).map Path.form) later =
      (firstOccurrences later).filter fun p => Path.form p ∉ earlier.map Path.form := by
    rw [freshPaths_eq_filter]
    exact List.filter_congr fun p _ => by simp only [mem_form_firstOccurrences]
  rw [hfresh]
  clear hfresh
  induction earlier with
  | nil => simp [firstOccurrences]
  | cons p rest ih =>
    rw [List.cons_append, firstOccurrences, ih, List.filter_append, List.filter_filter,
      firstOccurrences, List.cons_append]
    refine congrArg _ (congrArg _ (List.filter_congr fun q _ => ?_))
    simp

/-! ## Histories -/

/-- The inputs for a `tag` that were read by an operation. -/
def inputsRead (tag : Tag) : Operation × Bool → List String
  | (.readInputs tag' paths, true) => if tag' = tag then paths else []
  | _ => []

/-- The paths of the classpath that an `Operation` was to read. -/
def classpathRead : Operation × Bool → List String
  | (.readClasspath paths, _) => paths
  | _ => []

/-- The inputs for a `tag` that were read. -/
def inputsIn (tag : Tag) (done : List (Operation × Bool)) : List String :=
  done.flatMap (inputsRead tag)

/-- The classpath that was to be read by all that was `done`, each by `classpathRead`. -/
def classpathIn (done : List (Operation × Bool)) : List String :=
  done.flatMap classpathRead

@[simp]
theorem inputsIn_concat (tag : Tag) (done : List (Operation × Bool)) (last : Operation × Bool) :
    inputsIn tag (done ++ [last]) = inputsIn tag done ++ inputsRead tag last := by
  simp [inputsIn]

@[simp]
theorem classpathIn_concat (done : List (Operation × Bool)) (last : Operation × Bool) :
    classpathIn (done ++ [last]) = classpathIn done ++ classpathRead last := by
  simp [classpathIn]

namespace ProgramEngine

/-- An engine with a `launcher` that was told nothing yet. -/
def new (launcher : Java.Launcher) (remapper workingDirectory : String) : ProgramEngine where
  launcher := launcher
  remapper := remapper
  workingDirectory := workingDirectory

/-- What an engine keeps of a `view`. -/
def loaded (p : ProgramEngine) (view : View) : LoadedView where
  file := p.mappingsPath
  source := view.sourceLabel
  target := view.targetLabel
  locals := view.locals

/-- Whether a session over an engine that is `new` comes to a state by operations that were carried
out one after the other, each of which succeeded or failed as noted. Anything may happen to the host
in between. -/
inductive Reaches (p : ProgramEngine) (view : View) :
    List (Operation × Bool) → Run (Host × ProgramEngine) → Prop where
  | opened {host : Host} {s : Session} {state : Host × ProgramEngine}
    (h : (Session.open engine [view]).runFrom (host, p) = (.ok s, state)) :
    Reaches p view [] { session := s, engine := state }
  | next {done : List (Operation × Bool)} {run run' : Run (Host × ProgramEngine)}
    {outcome : Except Failure Unit} (before : Reaches p view done run) (op : Operation)
    (h : (op.run engine).runFrom run = (outcome, run')) :
    Reaches p view (done ++ [(op, outcome.isOk)]) run'
  | meanwhile {done : List (Operation × Bool)} {run : Run (Host × ProgramEngine)}
    (before : Reaches p view done run) (host : Host) :
    Reaches p view done { run with engine := (host, run.engine.2) }

/-- The engine after it was told a `view`, `inputs` and the `classpath`. -/
def told (p : ProgramEngine) (view : View) (inputs : OrderedMap Tag (List String))
    (classpath : List String) : ProgramEngine :=
  { p with view := some (p.loaded view), inputs, classpath }

/-- Whether a session that is open and its engine know which `inputs` were read for each tag, and
which `classpath` was to be read. -/
structure Remembers (p : ProgramEngine) (view : View) (inputs : Tag → List String)
    (classpath : List String) (run : Run (Host × ProgramEngine)) : Prop where
  isOpen : run.session.phase ≠ .closed
  known : run.session.classpath = (firstOccurrences classpath).map Path.form
  told : ∃ kept, run.engine.2 = p.told view kept (firstOccurrences classpath) ∧
    ∀ tag, (kept.get? tag).getD [] = inputs tag

/-! ### The calls -/

section Calls

variable {p q : ProgramEngine} {view : View} {host host' : Host}

/-- What `load` keeps of the views does not depend on the host. -/
theorem runFrom_load_eq_ok {loadedView : LoadedView}
    (h : (p.load [view]).runFrom host = (.ok loadedView, host')) : loadedView = p.loaded view := by
  obtain ⟨_, _, -, h⟩ := runFrom_bind_eq_ok_iff.1 h
  obtain ⟨_, _, -, h⟩ := runFrom_bind_eq_ok_iff.1 h
  cases h
  rfl

theorem runFrom_loadViews_eq_ok {u : Unit}
    (h : (engine (.loadViews [view])).runFrom (host, p) = (.ok u, (host', q))) :
    q = { p with view := some (p.loaded view) } := by
  obtain ⟨_, _, hget, h⟩ := runFrom_bind_eq_ok_iff.1 h
  cases hget
  obtain ⟨loadedView, state, hload, h⟩ := runFrom_bind_eq_ok_iff.1 h
  cases h
  rw [onHost, runFrom_onPart, Prod.mk.injEq] at hload
  obtain ⟨hload, rfl⟩ := hload
  rw [runFrom_load_eq_ok (Prod.ext hload rfl)]

/-- `open` makes a new session over an engine that was `told` the view only. -/
theorem runFrom_open_eq_ok {s : Session}
    (h : (Session.open engine [view]).runFrom (host, p) = (.ok s, (host', q))) :
    s = { views := [view] } ∧ q = p.told view p.inputs p.classpath := by
  obtain ⟨_, t, hload, hs⟩ := runFrom_bind_eq_ok_iff.1 h
  rw [runFrom_within_eq_ok_iff] at hload
  cases hs
  exact ⟨rfl, runFrom_loadViews_eq_ok hload⟩

theorem runFrom_apply (tag : Tag) (output : String) :
    (engine (.apply tag output)).runFrom (host, p) =
      (((p.remap tag output).runFrom host).1, (((p.remap tag output).runFrom host).2, p)) :=
  rfl

theorem runFrom_finish :
    (engine .finish).runFrom (host, p) =
      ((p.removeTable.runFrom host).1, ((p.removeTable.runFrom host).2, { p with view := none })) :=
  rfl

theorem runFrom_readInputs (tag : Tag) (paths : List String) (state : Host × ProgramEngine) :
    (engine (.readInputs tag paths)).runFrom state = (.ok (), (state.1,
      { state.2 with inputs := state.2.inputs.insert tag (state.2.inputsOf tag ++ paths) })) :=
  rfl

theorem runFrom_readClasspath (paths : List String) (state : Host × ProgramEngine) :
    (engine (.readClasspath paths)).runFrom state = (.ok (), (state.1,
      { state.2 with classpath := state.2.classpath ++ paths })) :=
  rfl

end Calls

/-! ### What is remembered -/

namespace Remembers

variable {launcher : Java.Launcher} {remapper workingDirectory : String} {p : ProgramEngine}
    {view : View}
  {inputs inputs' : Tag → List String} {classpath classpath' paths : List String} {tag : Tag}
  {run run' : Run (Host × ProgramEngine)} {outcome : Except Failure Unit}

/-- A new session `Remembers` the view, and that its engine has been told nothing else. -/
theorem opened {host : Host} {s : Session} {state : Host × ProgramEngine}
    (h : (Session.open engine [view]).runFrom (host, new launcher remapper workingDirectory) =
      (.ok s, state)) :
    Remembers (new launcher remapper workingDirectory) view (fun _ => []) []
      { session := s, engine := state } := by
  obtain ⟨host', q⟩ := state
  obtain ⟨rfl, rfl⟩ := runFrom_open_eq_ok h
  exact ⟨nofun, rfl, ∅, rfl, fun _ => rfl⟩

theorem congr (h : Remembers p view inputs classpath run)
    (hinputs : ∀ tag, inputs' tag = inputs tag)
    (hclasspath : classpath' = classpath) : Remembers p view inputs' classpath' run := by
  rwa [funext hinputs, hclasspath]

/-- What a session `Remembers` is only the classpath that it knows of, and what the engine was
told. -/
theorem of_same (h : Remembers p view inputs classpath run) (hopen : run'.session.phase ≠ .closed)
    (hsession : run'.session.classpath = run.session.classpath)
    (hengine : run'.engine.2 = run.engine.2) : Remembers p view inputs classpath run' where
  isOpen := hopen
  known := hsession.trans h.known
  told := hengine ▸ h.told

/-- `readInputs` keeps inputs with those that were read for the tag before, unless they come too
late. -/
theorem readInputs (h : Remembers p view inputs classpath run)
    (hrun : (Operation.run engine (.readInputs tag paths)).runFrom run = (outcome, run')) :
    Remembers p view
      (fun tag' => inputs tag' ++ inputsRead tag' (.readInputs tag paths, outcome.isOk))
      classpath run' := by
  -- once remapping has begun, inputs are refused and nothing is remembered
  by_cases hphase : run.session.phase = .remapping
  · have hrefusal : (Operation.readInputs tag paths).refusal? run.session.phase =
        some (.ofCause .remappingStarted) := by
      rw [hphase]
      rfl
    cases (Operation.runFrom_of_refusal hrefusal).symm.trans hrun
    exact h.congr (fun _ => List.append_nil _) rfl
  · obtain ⟨kept, hstate, hkept⟩ := h.told
    cases (Session.runFrom_readInputs_of_open h.isOpen hphase
      (runFrom_readInputs tag paths _)).symm.trans
      hrun
    refine ⟨nofun, h.known, kept.insert tag (inputs tag ++ paths), ?_, fun tag' => ?_⟩
    · rw [hstate, ← hkept]
      rfl
    · change _ = inputs tag' ++ if tag = tag' then paths else []
      rw [OrderedMap.get?_insert, ← hkept tag']
      by_cases htag : tag = tag'
      · rw [if_pos htag.symm, if_pos htag, ← htag, hkept]
        rfl
      · rw [if_neg (Ne.symm htag), if_neg htag, List.append_nil]

/-- `readClasspath` keeps what is fresh of the classpath. -/
theorem readClasspath (h : Remembers p view inputs classpath run)
    (hrun : (Operation.run engine (.readClasspath paths)).runFrom run = (outcome, run')) :
    Remembers p view inputs (classpath ++ paths) run' := by
  have hall : firstOccurrences (classpath ++ paths) =
      firstOccurrences classpath ++ freshPaths run.session.classpath paths := by
    rw [firstOccurrences_append, h.known]
  by_cases hfresh : freshPaths run.session.classpath paths = []
  · cases (Session.runFrom_readClasspath_of_known h.isOpen hfresh).symm.trans hrun
    rw [hfresh, List.append_nil] at hall
    exact ⟨h.isOpen, hall ▸ h.known, hall ▸ h.told⟩
  · obtain ⟨kept, hstate, hkept⟩ := h.told
    cases (Session.runFrom_readClasspath_of_fresh h.isOpen rfl hfresh
      (runFrom_readClasspath _ _)).symm.trans hrun
    refine ⟨h.isOpen, ?_, kept, ?_, hkept⟩
    · rw [hall, List.map_append, ← h.known]
      rfl
    · rw [hall, hstate]
      rfl

/-- Every operation but the last one keeps what a session `Remembers` up to date. -/
theorem next (h : Remembers p view inputs classpath run) {op : Operation} (hop : op ≠ .close)
    (hrun : (op.run engine).runFrom run = (outcome, run')) :
    Remembers p view (fun tag => inputs tag ++ inputsRead tag (op, outcome.isOk))
      (classpath ++ classpathRead (op, outcome.isOk)) run' := by
  cases op with
  | giveTag workingDirectory path =>
    refine Remembers.congr ?_ (fun _ => List.append_nil _) (List.append_nil _)
    -- an empty path is no path, so there is no tag for it
    by_cases hpath : path = ""
    · subst hpath
      cases hrun
      exact h
    · obtain ⟨tag, tags, htag⟩ := Session.runFrom_tag_of_open h.isOpen workingDirectory hpath
      change (Session.tag workingDirectory path >>= _).runFrom _ = _ at hrun
      rw [runFrom_bind, htag] at hrun
      cases hrun
      exact h.of_same h.isOpen rfl rfl
  | readInputs tag paths => exact (h.readInputs hrun).congr (fun _ => rfl) (List.append_nil _)
  | readClasspath paths => exact (h.readClasspath hrun).congr (fun _ => List.append_nil _) rfl
  | remap tag output =>
    refine Remembers.congr ?_ (fun _ => List.append_nil _) (List.append_nil _)
    cases (Session.runFrom_remap_of_open h.isOpen (runFrom_apply tag output)).symm.trans hrun
    exact h.of_same nofun rfl rfl
  | close => exact absurd rfl hop

end Remembers

/-- Until it is closed, a session `Remembers` what the history says, and so does its engine. -/
theorem Reaches.remembers {launcher : Java.Launcher} {remapper workingDirectory : String}
    {view : View} {done : List (Operation × Bool)} {run : Run (Host × ProgramEngine)}
    (h : Reaches (new launcher remapper workingDirectory) view done run)
    (hopen : ∀ e ∈ done, e.1 ≠ .close) :
    Remembers (new launcher remapper workingDirectory) view (inputsIn · done)
      (classpathIn done) run := by
  induction h with
  | opened h => exact .opened h
  | next before op h ih =>
    obtain ⟨hbefore, hop⟩ := List.forall_mem_append.1 hopen
    exact ((ih hbefore).next (hop _ List.mem_cons_self) h).congr (fun _ => inputsIn_concat ..)
      (classpathIn_concat ..)
  | meanwhile before host ih => exact (ih hopen).of_same (ih hopen).isOpen rfl rfl

/-! ### What is started -/

/-- The arguments with which the program is started for an `input` and an `output`. -/
def remapperArguments (p : ProgramEngine) (view : View) (classpath : List String)
    (input output : String) :
    List String :=
  ["-jar", p.remapper, input, output, p.mappingsPath, view.sourceLabel, view.targetLabel] ++
    classpath ++
    if view.locals then [] else ["--skiplocalvariablemapping"]

theorem allArguments_told (p : ProgramEngine) (view : View) (kept : OrderedMap Tag (List String))
    (classpath : List String) (input output : String) :
    ((p.told view kept classpath).program (p.loaded view) input output).allArguments =
      p.remapperArguments view classpath input output := by
  cases view.locals <;> rfl

/-- Whether the program can be started for an `input` and an `output`. -/
def CanRemap (p : ProgramEngine) (view : View) (classpath : List String) (host : Host)
    (input output : String) : Prop :=
  p.launcher.CanLaunch host minJavaVersion (p.remapperArguments view classpath input output)

section Remap

variable {p : ProgramEngine} {view : View} {kept : OrderedMap Tag (List String)}
    {classpath : List String}
  {tag : Tag} {input output : String} {host : Host}

/-- `remap` of the only input for a tag is `launch` of the program for it. -/
theorem remap_told (hinput : (kept.get? tag).getD [] = [input]) :
    (p.told view kept classpath).remap tag output =
      p.launcher.launch ((p.told view kept classpath).program (p.loaded view) input output) := by
  have hinputs : (p.told view kept classpath).inputsOf tag = [input] := hinput
  rw [remap, hinputs]
  rfl

/-- `remap` of the only input for a tag starts its program if the engine `CanRemap` it. -/
theorem started_remap (hinput : (kept.get? tag).getD [] = [input])
    (hcan : p.CanRemap view classpath host input output) :
    (((p.told view kept classpath).remap tag output).runFrom host).2.started =
      host.started ++ [["-version"], p.remapperArguments view classpath input output] := by
  rw [CanRemap, ← allArguments_told p view kept] at hcan
  rw [remap_told hinput, ← allArguments_told p view kept]
  exact Java.Launcher.started_launch rfl hcan

/-- If there is not one input for a tag, or the engine does not `CanRemap` it, `remap` fails and
nothing is remapped. -/
theorem runFrom_remap_eq_error
    (h :
      ∀ input, (kept.get? tag).getD [] = [input] → ¬p.CanRemap view classpath host input output) :
    ∃ failure host', ((p.told view kept classpath).remap tag output).runFrom host =
      (.error failure, host') ∧ host'.StartedAtMost host ["-version"] := by
  by_cases hone : ∃ input, (kept.get? tag).getD [] = [input]
  · obtain ⟨input, hinput⟩ := hone
    have hcannot := h input hinput
    rw [CanRemap, ← allArguments_told p view kept] at hcannot
    rw [remap_told hinput]
    exact Java.Launcher.runFrom_launch_eq_error rfl hcannot
  · refine ⟨.ofCause (.inputCount ((kept.get? tag).getD []) tag), host, ?_, .inl rfl⟩
    rw [remap]
    split
    · next input hinput => exact absurd ⟨input, hinput⟩ hone
    · rfl

/-- `removeTable` of an engine that was `told` a view removes its table. -/
theorem isPresent_of_removeTable {u : Unit} {host' : Host}
    (h : (p.told view kept classpath).removeTable.runFrom host = (.ok u, host')) :
    host'.files.isPresent p.mappingsPath = false := by
  obtain ⟨files, hfiles, rfl⟩ := Action.runFrom_change_eq_ok_iff.1 (runFrom_within_eq_ok_iff.1 h)
  exact FileStore.isPresent_of_removeFile hfiles

end Remap

/-- What comes of remapping a tag, of which the given `inputs` were read. If it is one, and the
program can be started with it, that is done once, after Java was asked for its version; otherwise
it is not done, and that is an error. -/
structure RemapsOnce (p : ProgramEngine) (view : View) (inputs classpath : List String)
    (output : String) (host : Host) (outcome : Except Failure Unit) (host' : Host) : Prop where
  started : ∀ input, inputs = [input] → p.CanRemap view classpath host input output →
    host'.started = host.started ++ [["-version"], p.remapperArguments view classpath input output]
  refused : (∀ input, inputs = [input] → ¬p.CanRemap view classpath host input output) →
    (∃ failure, outcome = .error failure) ∧ host'.StartedAtMost host ["-version"]

theorem Remembers.remap {p : ProgramEngine} {view : View} {inputs : Tag → List String}
    {classpath : List String} {run run' : Run (Host × ProgramEngine)}
    {outcome : Except Failure Unit}
    {tag : Tag} {output : String} (h : Remembers p view inputs classpath run)
    (hrun : (Session.remap engine tag output).runFrom run = (outcome, run')) :
    RemapsOnce p view (inputs tag) (firstOccurrences classpath) output run.engine.1 outcome
      run'.engine.1 := by
  obtain ⟨kept, hstate, hkept⟩ := h.told
  rw [Session.runFrom_remap_of_open h.isOpen (runFrom_apply tag output), hstate, Prod.mk.injEq]
    at hrun
  obtain ⟨rfl, rfl⟩ := hrun
  rw [← hkept tag]
  refine ⟨fun input => started_remap, fun hcannot => ?_⟩
  obtain ⟨failure, host', hremap, hstarted⟩ := runFrom_remap_eq_error hcannot
  rw [hremap]
  exact ⟨⟨_, rfl⟩, hstarted⟩

theorem Remembers.close {p : ProgramEngine} {view : View} {inputs : Tag → List String}
    {classpath : List String} {run run' : Run (Host × ProgramEngine)} {u : Unit}
    (h : Remembers p view inputs classpath run)
    (hrun : (Session.close engine).runFrom run = (.ok u, run')) :
    run'.engine.1.files.isPresent p.mappingsPath = false := by
  obtain ⟨kept, hstate, -⟩ := h.told
  rw [Session.runFrom_close_of_open h.isOpen runFrom_finish, hstate, Prod.mk.injEq] at hrun
  obtain ⟨hremove, rfl⟩ := hrun
  exact isPresent_of_removeTable (Prod.ext hremove rfl)

/-- In every session over a `ProgramEngine` that is not closed yet, `Session.remap` starts the
program once if `inputsIn` gives one input for the `tag` and the program can be started with it, as
`CanRemap` says. It is given `remapperArguments`: this input, the `output`, and the paths of
`classpathIn`, each of them once in the order in which they came first. Otherwise remapping fails. A
`Session.close` that succeeds removes the table that the program was given. -/
theorem remap_of_reaches {launcher : Java.Launcher} {remapper workingDirectory : String}
    {view : View} {done : List (Operation × Bool)} {run : Run (Host × ProgramEngine)}
    (h : Reaches (new launcher remapper workingDirectory) view done run)
    (hopen : ∀ e ∈ done, e.1 ≠ .close) :
    (∀ tag output outcome run', (Session.remap engine tag output).runFrom run = (outcome, run') →
      RemapsOnce (new launcher remapper workingDirectory) view (inputsIn tag done)
        (firstOccurrences (classpathIn done)) output run.engine.1 outcome run'.engine.1) ∧
    ∀ u run', (Session.close engine).runFrom run = (.ok u, run') →
      run'.engine.1.files.isPresent (Path.join workingDirectory "mappings.tiny") = false := by
  have hremembers := h.remembers hopen
  exact ⟨fun _ _ _ _ => hremembers.remap, fun _ _ => hremembers.close⟩

/-- A view without names, of a table with two namespaces. -/
def sampleView : View where
  table := {
    namespaces :=
      { labels := ["official", "named"], valid := Namespaces.validLabels_official_named } }
  source := 0
  target := 1

/-- A program that says that it is Java 17. -/
def sampleJava : ByteArray :=
  "#!/bin/sh\necho 'openjdk version \"17.0.11\" 2024-04-16' >&2\n".toUTF8

/-- A system that starts an executable file if it holds `sampleJava`, with arguments of less than
128 KiB each. -/
def sampleRefuses (files : FileStore) (command : String) (arguments : List String) :
    Option SystemError :=
  match files.find command with
  | .error e => some e
  | .ok (.file content true) =>
    if content.toBytes.data ≠ sampleJava.data then some .notAProgram
    else if arguments.any (131071 < ·.utf8ByteSize) then some .argumentsTooLong
    else none
  | .ok _ => some .permissionDenied

/-- A host on which the table of `sampleView` was written, with Java 17. -/
def sampleHost : Host where
  files := {
    workingDirectory := []
    nodes := .ofList [
      (["java"], .file (.bytes sampleJava) true),
      (["work"], .directory),
      (["work", "mappings.tiny"], .file (.bytes .empty) false)] }
  refuses := sampleRefuses
  respond := fun _ _ => { stderr := "openjdk version \"17.0.11\" 2024-04-16".toUTF8 }

def sample : ProgramEngine :=
  new { command := "./java" } "remapper.jar" "work"

/-- A session over the `sample` that was just opened. -/
def sampleRun : Run (Host × ProgramEngine) where
  session := { views := [sampleView] }
  engine := (sampleHost, sample.told sampleView ∅ [])

/-- Inputs are read for two tags, and one of the tags is remapped, for which there are too many. -/
def sampleHistory : List (Operation × Bool) := [
  (.readInputs 0 ["m.jar"], true),
  (.readInputs 1 ["x.jar", "y.jar"], true),
  (.readClasspath ["lib/a.jar", "lib//a.jar"], true),
  (.remap 1 "out.jar", false),
  (.readInputs 0 ["n.jar"], false),
  (.readClasspath ["b.jar", "lib/a.jar"], true)]

theorem reaches_sampleRun : Reaches sample sampleView [] sampleRun := by
  have hopen : ((Session.open engine [sampleView]).runFrom (sampleHost, sample)).1.toOption =
      some { views := [sampleView] } := by
    decide +kernel
  generalize hrun : (Session.open engine [sampleView]).runFrom (sampleHost, sample) = r at hopen
  obtain ⟨outcome, host, p⟩ := r
  obtain rfl := toOption_eq_some_iff.1 hopen
  obtain ⟨-, rfl⟩ := runFrom_open_eq_ok hrun
  exact (Reaches.opened hrun).meanwhile sampleHost

/-- A run that a session `Reaches` can be followed by any operation. -/
theorem Reaches.after {p : ProgramEngine} {view : View} {done : List (Operation × Bool)}
    {run : Run (Host × ProgramEngine)} (before : Reaches p view done run) (op : Operation) :
    Reaches p view (done ++ [(op, ((op.run engine).runFrom run).1.isOk)])
      ((op.run engine).runFrom run).2 :=
  before.next op (Prod.eta _).symm

/-- The Java of the `sampleHost` `Reports` that it is new enough. -/
theorem reports_sample : ∃ version, sample.launcher.Reports sampleHost version ∧
    minJavaVersion ≤ version :=
  ⟨17, ⟨by decide +kernel, _, rfl, rfl⟩, by decide⟩

theorem canRemap_sample :
    sample.CanRemap sampleView ["lib/a.jar", "b.jar"] sampleHost "m.jar" "out.jar" where
  version := reports_sample
  avoids := by decide +kernel
  starts := by
    -- Java does not write anything when it is asked for its version
    rw [Host.ran_of_writes rfl]
    decide +kernel

theorem exists_reaches_sample : ∃ run, Reaches sample sampleView sampleHistory run ∧
    run.engine.1 = sampleHost ∧ ((Session.close engine).runFrom run).1 = .ok () := by
  have hreaches := ((((((reaches_sampleRun.after
    (.readInputs 0 ["m.jar"])).after
    (.readInputs 1 ["x.jar", "y.jar"])).after
    (.readClasspath ["lib/a.jar", "lib//a.jar"])).after
    (.remap 1 "out.jar")).after
    (.readInputs 0 ["n.jar"])).after
    (.readClasspath ["b.jar", "lib/a.jar"])).meanwhile sampleHost
  exact ⟨_, hreaches, rfl, rfl⟩

/-- The tag with one input is remapped in the `sampleHistory`, the one with two inputs is not, and
nothing is left at the end. -/
theorem remap_of_reaches_sample : ∃ run, Reaches sample sampleView sampleHistory run ∧
    run.engine.1 = sampleHost ∧
    ((Session.remap engine 0 "out.jar").runFrom run).2.engine.1.started = [["-version"],
      ["-jar", "remapper.jar", "m.jar", "out.jar", "work/mappings.tiny", "official", "named",
        "lib/a.jar", "b.jar", "--skiplocalvariablemapping"]] ∧
    (∃ failure, ((Session.remap engine 1 "out.jar").runFrom run).1 = .error failure) ∧
    ((Session.close engine).runFrom run).1 = .ok () ∧
    ((Session.close engine).runFrom run).2.engine.1.files.isPresent
      "work/mappings.tiny" = false := by
  obtain ⟨run, hreaches, hhost, hclosed⟩ := exists_reaches_sample
  have hopen : ∀ e ∈ sampleHistory, e.1 ≠ .close := by decide
  have hclasspath : firstOccurrences (classpathIn sampleHistory) = ["lib/a.jar", "b.jar"] := by
    decide +kernel
  obtain ⟨hremap, hclose⟩ := remap_of_reaches hreaches hopen
  rw [hhost, hclasspath] at hremap
  have hstarted := (hremap 0 "out.jar" _ _ (Prod.eta _).symm).started "m.jar" (by decide +kernel)
    canRemap_sample
  have hrefused :=
    (hremap 1 "out.jar" _ _ (Prod.eta _).symm).refused fun input hinput => by cases hinput
  exact ⟨run, hreaches, hhost, hstarted, hrefused.1, hclosed, hclose () _ (Prod.ext hclosed rfl)⟩

/-- The `sampleHost` with a Java that overwrites itself when it is asked for its version. -/
def overwritingHost : Host :=
  { sampleHost with
    respond := fun files arguments => { sampleHost.respond files arguments with
      writes := some ("java", .empty) } }

theorem reports_overwriting : ∃ version, sample.launcher.Reports overwritingHost version ∧
    minJavaVersion ≤ version :=
  ⟨17, ⟨by decide +kernel, _, rfl, rfl⟩, by decide⟩

/-- One input and a Java that is new enough are not all that `CanRemap` asks for. No program is
started for an output whose path contains a NUL character, which no program can be given, and none
if the system does not start Java any more after that said that it is new enough. -/
theorem remap_unstartable :
    inputsIn 0 [(.readInputs 0 ["m.jar"], true)] = ["m.jar"] ∧
    ∀ e ∈ [(sampleHost, "o\x00"), (overwritingHost, "o")],
      ∃ run, Reaches sample sampleView [(.readInputs 0 ["m.jar"], true)] run ∧ run.engine.1 = e.1 ∧
        (∃ version, sample.launcher.Reports e.1 version ∧ minJavaVersion ≤ version) ∧
        ((Session.remap engine 0 e.2).runFrom run).1.isOk = false ∧
        ((Session.remap engine 0 e.2).runFrom run).2.engine.1.started =
          e.1.started ++ [["-version"]] := by
  have hreaches := reaches_sampleRun.after (.readInputs 0 ["m.jar"])
  refine ⟨rfl, List.forall_mem_cons.2 ⟨?_, List.forall_mem_singleton.2 ?_⟩⟩
  · exact ⟨_, hreaches.meanwhile sampleHost, rfl, reports_sample, by decide +kernel,
      by decide +kernel⟩
  · exact ⟨_, hreaches.meanwhile overwritingHost, rfl, reports_overwriting, by decide +kernel,
      by decide +kernel⟩

end ProgramEngine

end MappingTables.Remap
