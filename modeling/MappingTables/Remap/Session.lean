import MappingTables.Files.Path
import MappingTables.OrderedMap
import MappingTables.Remap.Engine

/-!
# Remapping sessions

A session makes sure that an engine is used in order: inputs are read before the first output is
written, and nothing is done once the session is closed. It also gives out the tags for inputs, and
hands each path of the classpath to the engine only once.

* `Session.open`: a new session with the engine, which is given the views.
* `Session.tag`, `Session.readInputs`, `Session.readClasspath`, `Session.remap`, `Session.close`:
  the operations of a session, as steps on the session and the engine's state.
-/

namespace MappingTables.Remap

/-- How far a session has come. -/
inductive Phase where
  | created
  | readingInputs
  | remapping
  | closed
deriving DecidableEq, Repr

/-- One remapping session. -/
structure Session where
  phase : Phase := .created
  /-- The renames that the engine was given, until the session is closed. -/
  views : List View
  /-- The tags by what the absolute paths of their inputs consist of. -/
  tags : OrderedMap Path.Form Tag := ∅
  /-- What the paths of the classpath consist of, as far as they were handed to the engine. -/
  classpath : List Path.Form := []
deriving DecidableEq

/-- A session with the state of its engine. -/
structure Run (σ : Type) where
  session : Session
  engine : σ

/-- The paths that are neither among the `seen` ones nor there twice. -/
def freshPaths (seen : List Path.Form) : List String → List String
  | [] => []
  | p :: rest =>
    if Path.form p ∈ seen then freshPaths seen rest
    else p :: freshPaths (Path.form p :: seen) rest

namespace Session

variable {σ : Type}

/-- The session in another `phase`. -/
def withPhase (phase : Phase) (s : Session) : Session :=
  { s with phase }

/-- The session after the end, in the `closed` phase: it lets go of the views. -/
def ended (s : Session) : Session :=
  { s with phase := .closed, views := [] }

/-- The session with `paths` added to the classpath. -/
def withClasspath (paths : List String) (s : Session) : Session :=
  { s with classpath := s.classpath ++ paths.map Path.form }

/-- The tag for an absolute `path`, and the session that knows it. Tags are numbered in the order in
which they are asked for. -/
def tagFor (path : String) (s : Session) : Tag × Session :=
  match s.tags.get? (Path.form path) with
  | some tag => (tag, s)
  | none => (s.tags.size, { s with tags := s.tags.insert (Path.form path) s.tags.size })

/-- Changes the session by `f`. -/
def change (f : Session → Session) : Step (Run σ) Unit :=
  modify fun run => { run with session := f run.session }

/-- Calls the `engine`. -/
def perform (engine : Engine σ) (call : Call) : Step (Run σ) Unit :=
  (engine call).onPart Run.engine fun state run => { run with engine := state }

/-- Checks that the session is not `closed`, as it has to be for an `action`. -/
def requireOpen (action : SessionAction) : Step (Run σ) Unit := do
  if (← get).session.phase = .closed then fail (.sessionClosed action)

/-- A new session, whose `engine` is given the `views`. -/
def «open» (engine : Engine σ) (views : List View) : Step σ Session := do
  within .loadViews (engine (.loadViews views))
  return { views }

/-- The tag for a file, the same one each time for the same absolute `path`. -/
def tag (workingDirectory path : String) : Step (Run σ) Tag := do
  match Path.absolute? workingDirectory path with
  | none => within (.makeAbsolute path) (fail .emptyPath)
  | some path =>
    requireOpen .createTags
    modifyGet fun run =>
      let (tag, session) := run.session.tagFor path
      (tag, { run with session })

/-- Reads inputs of a `tag` at some `paths`, which has to be done before any of them is remapped. -/
def readInputs (engine : Engine σ) (tag : Tag) (paths : List String) : Step (Run σ) Unit := do
  if (← get).session.phase = .remapping then fail .remappingStarted
  requireOpen .readInputs
  perform engine (.readInputs tag paths)
  change (withPhase .readingInputs)

/-- Reads the classpath. Paths that were handed to the `engine` before are left out, and the engine
is not called if none is left. -/
def readClasspath (engine : Engine σ) (paths : List String) : Step (Run σ) Unit := do
  requireOpen .readClasspath
  let fresh := freshPaths (← get).session.classpath paths
  change (withClasspath fresh)
  if fresh ≠ [] then perform engine (.readClasspath fresh)

/-- Remaps the inputs of a `tag`. After this, no more inputs can be read. -/
def remap (engine : Engine σ) (tag : Tag) (output : String) : Step (Run σ) Unit := do
  requireOpen .remap
  change (withPhase .remapping)
  within (.remapTo output) (perform engine (.apply tag output))

/-- Lets the `engine` finish, and closes the session if it does. -/
def close (engine : Engine σ) : Step (Run σ) Unit := do
  requireOpen .close
  perform engine .finish
  change ended

end Session

end MappingTables.Remap
