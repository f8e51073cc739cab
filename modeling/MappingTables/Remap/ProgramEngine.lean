import MappingTables.Files.MappingsFile
import MappingTables.Java.Launcher
import MappingTables.Remap.Engine

/-!
# Remapping by a separate program

An engine that runs a Java program, once for each output. It takes the renames of a single view,
which are written to a file in a working directory of their own, and exactly one input for each
output.
-/

namespace MappingTables.Remap

/-- The view that a program was given. -/
structure LoadedView where
  /-- The file that holds the table. -/
  file : String
  source : String
  target : String
  locals : Bool
deriving DecidableEq, Repr

/-- An engine that runs a program, with what it was told so far. -/
structure ProgramEngine where
  launcher : Java.Launcher
  /-- The jar of the program. -/
  remapper : String
  /-- The directory in which the program finds its table. -/
  workingDirectory : String
  /-- The view, until the engine is finished. -/
  view : Option LoadedView := none
  /-- The inputs by their tags. -/
  inputs : OrderedMap Tag (List String) := ∅
  classpath : List String := []
deriving DecidableEq

namespace ProgramEngine

/-- The lowest major version of Java that the program runs with. -/
def minJavaVersion : Nat :=
  8

/-- The file that holds the table, in the `workingDirectory`. -/
def mappingsPath (p : ProgramEngine) : String :=
  Path.join p.workingDirectory "mappings.tiny"

/-- The inputs that were read for a `tag`. -/
def inputsOf (p : ProgramEngine) (tag : Tag) : List String :=
  (p.inputs.get? tag).getD []

/-- What is run to remap an `input`. -/
def program (p : ProgramEngine) (view : LoadedView) (input output : String) : Java.Program where
  entry := .jar p.remapper
  arguments :=
    [input, output, view.file, view.source, view.target] ++ p.classpath ++
      if view.locals then [] else ["--skiplocalvariablemapping"]
  minVersion := some minJavaVersion

/-- Writes the table of the view to the `mappingsPath`. There has to be exactly one view. -/
def load (p : ProgramEngine) : List View → Action LoadedView
  | [view] => do
    within (.createDirectory p.workingDirectory)
      (Action.createDirectories p.workingDirectory)
    MappingsFile.write .nested view.table p.mappingsPath
    return {
      file := p.mappingsPath
      source := view.sourceLabel
      target := view.targetLabel
      locals := view.locals }
  | views => fail (.viewCount views.length)

/-- Remaps the input of a `tag`. -/
def remap (p : ProgramEngine) (tag : Tag) (output : String) : Action Unit :=
  match p.inputsOf tag with
  | [input] =>
    match p.view with
    | some view => p.launcher.launch (p.program view input output)
    | none => fail .nothingLoaded
  | inputs => fail (.inputCount inputs tag)

/-- Removes the table of the `view`, if there is one. -/
def removeTable (p : ProgramEngine) : Action Unit :=
  match p.view with
  | some view => within (.removeFile view.file) (Action.change (·.removeFile view.file))
  | none => return

/-- A step on the host alone, by `action`. -/
def onHost {α : Type} (action : Action α) : Step (Host × ProgramEngine) α :=
  action.onPart Prod.fst fun host state => (host, state.2)

/-- Changes by `f` what the engine was told. -/
def change (f : ProgramEngine → ProgramEngine) : Step (Host × ProgramEngine) Unit :=
  modify fun (host, p) => (host, f p)

/-- The engine that runs a program. -/
def engine : Engine (Host × ProgramEngine)
  | .loadViews views => do
    let view ← onHost ((← get).2.load views)
    change fun p => { p with view := some view }
  | .readInputs tag paths =>
    change fun p => { p with inputs := p.inputs.insert tag (p.inputsOf tag ++ paths) }
  | .readClasspath paths =>
    change fun p => { p with classpath := p.classpath ++ paths }
  | .apply tag output => do
    onHost ((← get).2.remap tag output)
  | .finish => do
    let p := (← get).2
    change fun p => { p with view := none }
    onHost p.removeTable

end ProgramEngine

end MappingTables.Remap
