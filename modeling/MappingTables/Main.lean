import MappingTables.CommandLine.Run

/-!
# The program

One run of the program: the files that its command concerns are taken from the file system, the
command is carried out on them, and what changed is put back. Other programs are not started, so a
command that needs Java fails as it does where there is none.
-/

namespace MappingTables.CommandLine

/-- The paths of the files and directories that a `Command` may read or write. -/
def Command.paths : Command → List String
  | .setUp config _ =>
    [config.jar, config.intermediary] ++
      [.plain, .nested].map fun dialect =>
        (Artifact.Provider.ofConfig config dialect).workingDirectory
  | .merge left right output _ => [left, right, output]
  | .reorder input _ output _ => [input, output]
  | .switch input _ output _ => [input, output]
  | .detect input => [input]

/-- The locations on the way to a `path`, from the root to the path itself. -/
def locationsTo (workingDirectory : Location) (path : String) : List Location :=
  let start := if Path.isAbsolute path then [] else workingDirectory
  let place := (Path.parts path).foldl FileStore.enter start
  (List.range place.length).map fun i => place.take (i + 1)

/-- The absolute path of a location. -/
def locationPath (place : Location) : String :=
  "/" ++ "/".intercalate place

/-- Takes what is at a location from the file system. -/
def takeLocation (files : FileStore) (place : Location) : IO FileStore := do
  let path := (← IO.currentDir) / locationPath place
  if ← path.isDir then return files.set place .directory
  else if ← path.pathExists then
    return files.set place (.file (.bytes (← IO.FS.readBinFile path)) false)
  else return files

/-- Takes what is at a `path` and below it from the file system, with the directories above it. -/
def takePath (files : FileStore) (path : String) : IO FileStore := do
  let places := locationsTo files.workingDirectory path
  let here := (← IO.currentDir) / locationPath (places.getLastD [])
  let below ← if ← here.isDir then here.walkDir else pure #[]
  let inside := below.toList.map fun found => Path.parts found.toString
  (places ++ inside).foldlM takeLocation files

/-- Makes what is at a location in the file system what it is after a run. -/
def putLocation (before after : FileStore) (place : Location) : IO Unit := do
  let path := (← IO.currentDir) / locationPath place
  match before.node? place, after.node? place with
  | some _, none =>
    if ← path.isDir then IO.FS.removeDirAll path
    else if ← path.pathExists then IO.FS.removeFile path
  | _, some .directory => IO.FS.createDirAll path
  | some (.file earlier _), some (.file content _) =>
    if earlier.toBytes != content.toBytes then IO.FS.writeBinFile path content.toBytes
  | _, some (.file content _) => IO.FS.writeBinFile path content.toBytes
  | none, none => pure ()

/-- Carries out the command that `args` stand for, and gives the code to exit with. -/
def runProgram (args : List String) : IO UInt32 := do
  let workingDirectory := Path.parts (← IO.currentDir).toString
  let paths :=
    match Invocation.ofArguments args with
    | .ok invocation => invocation.command.paths
    | .error _ => []
  let before ← paths.foldlM takePath { workingDirectory }
  let (outcome, host) := execute (← IO.getEnv "JAVA_HOME") args { files := before }
  let places := (before.nodes.keys ++ host.files.nodes.keys).eraseDups
  places.forM (putLocation before host.files)
  let errors ← IO.getStderr
  outcome.log.forM errors.putStrLn
  (← IO.getStdout).putStr outcome.output
  if let some failure := outcome.failure then errors.putStr failure.report
  return UInt32.ofNat outcome.exit

end MappingTables.CommandLine

/-- The program. -/
def main (args : List String) : IO UInt32 :=
  MappingTables.CommandLine.runProgram args
