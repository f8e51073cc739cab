import MappingTables.Java.Launcher

/-!
# Proposing names for fields

Mappings in the plain dialect come without names for many fields. Something that looks at the game
jar proposes names for them, and writes a new mappings file.

* `stitchProposer`: the proposer that runs a Java program.
* `FieldNameProposer.recorded`: a proposer that leaves a record of what it was asked.
-/

namespace MappingTables.Artifact

/-- Proposes names for the fields of mappings. It is given the jar of the game as `gameJar`, the
file with the mappings as `base`, and the file to be written as `out`. -/
abbrev FieldNameProposer := (gameJar base out : String) → Action Unit

/-- The proposer `propose` with a record of what it is asked. -/
def FieldNameProposer.recorded (propose : FieldNameProposer) : FieldNameProposer :=
  fun gameJar base out => do
    modify fun host => { host with proposals := host.proposals ++ [(gameJar, base, out)] }
    propose gameJar base out

/-- An absolute `path` for a path. -/
def absolutePath (path : String) : Action String := do
  match Path.absolute? (← get).files.workingPath path with
  | some path => return path
  | none => within (.makeAbsolute path) (fail .emptyPath)

/-- The program that proposes names, called with `paths`. -/
def stitchProgram (classpath paths : List String) : Java.Program where
  entry := .mainClass "net.fabricmc.stitch.Main" classpath
  arguments := "proposeFieldNames" :: paths
  minVersion := some 8

/-- The proposer that runs `stitchProgram` by a `launcher`, and tells it absolute paths. It has to
write the file. -/
def stitchProposer (launcher : Java.Launcher) (classpath : List String) : FieldNameProposer :=
  fun gameJar base out => do
    Action.notice .populating
    let paths ← [gameJar, base, out].mapM absolutePath
    within (.proposeNames base) (launcher.launch (stitchProgram classpath paths))
    if !(← Action.isPresent out) then fail (.nothingProposed base out)

end MappingTables.Artifact
