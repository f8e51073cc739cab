import MappingTables.Files.Content
import MappingTables.Noted
import MappingTables.Notice
import MappingTables.Service
import MappingTables.Step

/-!
# The host

What a build step works on: the files, the programs that can be started, the tables of the build,
and a record of what happened. An `Action` changes the host and can fail; what it did before it
failed stays done.
-/

namespace MappingTables

/-- What a program does when it is run. -/
structure Response where
  /-- The code with which it exits; 0 says that it succeeded. -/
  exit : Nat := 0
  /-- What it writes to its error stream. -/
  stderr : ByteArray := ByteArray.empty
  /-- The file that it tries to write, with the content. -/
  writes : Option (String × ByteArray) := none

/-- What a build step works on. -/
structure Host where
  /-- The files and directories. -/
  files : FileStore
  /-- Why the system does not start a command with some arguments, given the files, if it does not.
  A host has no program unless it is told otherwise. -/
  refuses : FileStore → (command : String) → (arguments : List String) → Option SystemError :=
    fun _ _ _ => some .notFound
  /-- What a program does when it is run with the given files and arguments. -/
  respond : FileStore → List String → Response := fun _ _ => {}
  /-- The tables of the build. -/
  tables : Service := {}
  /-- The arguments of all programs that were started. -/
  started : List (List String) := []
  /-- The notices of all operations. -/
  notices : List Notice := []
  /-- What field names were proposed for: the game jar, the mappings, and the file to be written. -/
  proposals : List (String × String × String) := []

/-- An operation on the `Host`. -/
abbrev Action (α : Type) := Step Host α

namespace Action

variable {α : Type}

/-- Leaves a `Notice` with the host. -/
def notice (n : Notice) : Action Unit :=
  modify fun host => { host with notices := host.notices ++ [n] }

/-- Leaves the notes of an operation `x` as notices. -/
def ofNoted (x : Noted Notice α) : Action α := do
  modify fun host => { host with notices := host.notices ++ x.notes }
  Step.ofExcept x.outcome

/-- Asks the files for something by `ask`, which does not change them. -/
def query (ask : FileStore → Except SystemError α) : Action α := do
  match ask (← get).files with
  | .ok a => return a
  | .error e => fail (.system e)

/-- Changes the files by `apply`, if that succeeds. -/
def change (apply : FileStore → Except SystemError FileStore) : Action Unit := do
  let files ← query apply
  modify fun host => { host with files }

/-- Changes the files step by step by `apply`, and gives the error that ends that. -/
def attempt (apply : FileStore → Except SystemError Unit × FileStore) :
    Action (Except SystemError Unit) :=
  modifyGet fun host =>
    let (outcome, files) := apply host.files
    (outcome, { host with files })

/-- Changes the files step by step by `apply`. -/
def changeAll (apply : FileStore → Except SystemError Unit × FileStore) : Action Unit := do
  match ← attempt apply with
  | .ok () => return
  | .error e => fail (.system e)

/-- Makes a directory at a `path` and those above it, as far as they are not there yet. -/
def createDirectories (path : String) : Action Unit :=
  changeAll (·.createDirectories path)

/-- Whether there is something at a `path`. -/
def isPresent (path : String) : Action Bool := do
  return (← get).files.isPresent path

/-- Opens a file at a `path` to write to it, and gives its location. -/
def create (path : String) : Action Location := do
  let (place, files) ← query (·.create path)
  modify fun host => { host with files }
  return place

/-- Writes `content` to the file at a location, which is open. -/
def fill (place : Location) (content : FileContent) : Action Unit :=
  changeAll (·.fill place content)

/-- Writes `content` to a file, in the place of what is there. -/
def write (path : String) (content : FileContent) : Action Unit :=
  changeAll (·.write path content)

/-- Writes a file, in one context for `opening` it and in another one for `writing` to it. -/
def writeIn (opening writing : Context) (path : String) (content : FileContent) : Action Unit := do
  let place ← within opening (create path)
  within writing (fill place content)

/-- The table under a `key`. If there is none, it is built and kept. -/
def getOrCreate (key : String) (build : Action Table) : Action SharedTable := do
  match (← get).tables.get? key with
  | some shared => return shared
  | none =>
    modify fun host => { host with tables := host.tables.reserve key }
    let table ← within (.buildTable key) build
    modifyGet fun host =>
      let (shared, tables) := host.tables.store key table
      (shared, { host with tables })

end Action

namespace Host

/-- Writes the file that a `response` says the program tries to write, as far as that can be
done. -/
def applyWrite (host : Host) (response : Response) : Host :=
  match response.writes with
  | none => host
  | some (path, bytes) => { host with files := (host.files.write path (.bytes bytes)).2 }

/-- Why a `command` is not run with some `arguments`, if that is so. None of them can contain a NUL,
whatever the system does about them. -/
def checkCommand (host : Host) (command : String) (arguments : List String) :
    Except SystemError Unit :=
  if (command :: arguments).any fun part => '\x00' ∈ part.toList then .error .nulInCommand
  else
    match host.refuses host.files command arguments with
    | some e => .error e
    | none => .ok ()

/-- Runs a program with `arguments`, if `checkCommand` has nothing against it. -/
def run (host : Host) (command : String) (arguments : List String) :
    Except SystemError Response × Host :=
  match host.checkCommand command arguments with
  | .error e => (.error e, host)
  | .ok () =>
    let response := host.respond host.files arguments
    (.ok response, { host with started := host.started ++ [arguments] }.applyWrite response)

end Host

/-- Runs a program with `arguments` on the host, as `Host.run` says. -/
def Action.run (command : String) (arguments : List String) : Action Response := do
  let (response, host) := (← get).run command arguments
  set host
  match response with
  | .ok response => return response
  | .error e => fail (.system e)

end MappingTables
