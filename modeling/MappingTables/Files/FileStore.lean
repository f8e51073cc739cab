import MappingTables.Failure
import MappingTables.Files.Path
import MappingTables.OrderedMap

/-!
# Files

A `FileStore` holds files and directories by their locations, which are the parts of their absolute
paths. The operations on it fail as those of an operating system do. What an operation of several
steps did before it failed stays done.

An archive that was made here is kept as what is in it, one content under each member's name: how
its members are packed is of no concern to those who work with it.

* `FileStore.find`, `FileStore.read`: what is at a path.
* `FileStore.create`, `FileStore.fill`: opening a file, which throws away what it held, and writing
  to it, which can fail on the way.
* `FileStore.write`: both of them, one after the other.
* `FileStore.createDirectories`, `FileStore.removeFile`, `FileStore.removeDirectory`: what else can
  be changed.
-/

namespace MappingTables

/-- The members of an archive by their names. -/
abbrev Archive := OrderedMap String ByteArray

/-- The archive with the given `members`. No two of them can have the same name. -/
def Archive.ofMembers (members : List (String × ByteArray)) : Except Failure Archive :=
  members.foldlM (fun archive (name, content) =>
    match archive.insertNew? name content with
    | some archive => .ok archive
    | none => fail .repeatedMember) ∅

/-- What a file holds. -/
inductive FileContent where
  /-- Bytes, whatever they stand for. -/
  | bytes (bytes : ByteArray)
  /-- An archive that was made from members. -/
  | archive (members : Archive)
  /-- Nothing, whatever is written to it: it is a device. -/
  | sink

/-- What a file holds after `new` was written in the place of `old`. -/
def FileContent.overwrittenBy (old new : FileContent) : FileContent :=
  match old with
  | .sink => .sink
  | .bytes _ | .archive _ => new

/-- What is at a location. -/
inductive FileNode where
  | directory
  /-- A file, and whether it can be started as a program. -/
  | file (content : FileContent) (isExecutable : Bool)

/-- The parts of an absolute path, from the root on. -/
abbrev Location := List String

/-- Whether a `content` can be what was `written` when writing another one ended early. Bytes are
written from the first one on; the parts of an archive are written in no such order. -/
def FileContent.IsBeginningOf (written content : FileContent) : Prop :=
  match content with
  | .bytes all => ∃ count, written = .bytes (all.extract 0 count)
  | .archive _ | .sink => True

/-- How writing a `content` to a file ends before all is written. -/
structure Interruption (content : FileContent) where
  error : SystemError
  /-- What was written until then. -/
  written : FileContent
  isBeginning : written.IsBeginningOf content

/-- Nothing at all of the `content` was written, because of an `error`. -/
def Interruption.atOnce (error : SystemError) (content : FileContent) : Interruption content where
  error
  written := .bytes .empty
  isBeginning := by
    cases content with
    | bytes all => exact ⟨0, by simp⟩
    | archive | sink => trivial

/-- Files and directories. -/
structure FileStore where
  /-- The directory at which relative paths start. It is there, as are all above it. -/
  workingDirectory : Location
  /-- All other directories, and the files. -/
  nodes : OrderedMap Location FileNode := ∅
  /-- How writing a content to the file at a location is interrupted, if it is: what the system does
  about it, such as on a full disk, is none of this store's business. -/
  interrupts : Location → (content : FileContent) → Option (Interruption content) := fun _ _ => none

namespace FileStore

/-- What is at a `place`. -/
def node? (fs : FileStore) (place : Location) : Option FileNode :=
  if place.isPrefixOf fs.workingDirectory then some .directory else fs.nodes.get? place

/-- Puts a `node` at a `place`. -/
def set (fs : FileStore) (place : Location) (node : FileNode) : FileStore :=
  { fs with nodes := fs.nodes.insert place node }

/-- The location that a `part` of a path leads to. -/
def enter (place : Location) (part : String) : Location :=
  if part = ".." then place.dropLast else place ++ [part]

/-- How many bytes a part of a path can have at most. -/
def longestPart : Nat := 255

/-- How many bytes a path can have at most. -/
def longestPath : Nat := 4095

/-- Checks that there is a directory at a `place`. -/
def requireDirectory (fs : FileStore) (place : Location) : Except SystemError Unit :=
  match fs.node? place with
  | some .directory => .ok ()
  | some (.file ..) => .error .notADirectory
  | none => .error .notFound

/-- The location that parts of a path lead to from a `place`. All but the last one have to be
directories. -/
def walk (fs : FileStore) (place : Location) : List String → Except SystemError Location
  | [] => .ok place
  | part :: rest => do
    fs.requireDirectory place
    if longestPart < part.utf8ByteSize then .error .nameTooLong
    else fs.walk (enter place part) rest

/-- The absolute path of the `workingDirectory`, at which relative paths start. -/
def workingPath (fs : FileStore) : String :=
  "/" ++ "/".intercalate fs.workingDirectory

/-- Where a `path` starts. -/
def origin (fs : FileStore) (path : String) : Location :=
  if Path.isAbsolute path then [] else fs.workingDirectory

/-- Checks that a text can be a `path`. -/
def checkPath (path : String) : Except SystemError Unit :=
  if '\x00' ∈ path.toList then .error .nulInPath
  else if path = "" then .error .notFound
  else if longestPath < path.utf8ByteSize then .error .nameTooLong
  else .ok ()

/-- The location of a `path`. There is nothing at the empty path. -/
def locate (fs : FileStore) (path : String) : Except SystemError Location := do
  checkPath path
  fs.walk (fs.origin path) (Path.parts path)

/-- Checks that a `path` leads through directories only, whatever its last part is. -/
def checkWay (fs : FileStore) (path : String) : Except SystemError Unit := do
  checkPath path
  fs.requireDirectory (← fs.walk (fs.origin path) (Path.parts path).dropLast)

/-- What is at a `path`. -/
def find (fs : FileStore) (path : String) : Except SystemError FileNode := do
  match fs.node? (← fs.locate path) with
  | none => .error .notFound
  | some .directory => .ok .directory
  | some (.file content isExecutable) =>
    if Path.namesDirectory path then .error .notADirectory else .ok (.file content isExecutable)

/-- Whether there is something at a `path`. -/
def isPresent (fs : FileStore) (path : String) : Bool :=
  (fs.find path).isOk

/-- Whether there is a directory at a `path`. -/
def isDirectory (fs : FileStore) (path : String) : Bool :=
  match fs.find path with
  | .ok .directory => true
  | _ => false

/-- The content of what is at a `path`. A directory has none. -/
def read (fs : FileStore) (path : String) : Except SystemError FileContent := do
  match ← fs.find path with
  | .directory => .error .isADirectory
  | .file content _ => .ok content

/-- What the file at a location holds after a `content` was written to it. -/
def received (fs : FileStore) (place : Location) (content : FileContent) : FileContent :=
  match fs.node? place with
  | some (.file old _) => old.overwrittenBy content
  | _ => content

/-- Opens a file to write to it, and gives its location. What it held is thrown away; it can be
started afterwards if it could before. Its directory has to be there. Nothing is opened at a `path`
that can only be that of a directory; with a slash after its last part, it is not even looked what
is there. -/
def create (fs : FileStore) (path : String) : Except SystemError (Location × FileStore) := do
  let isEntered := Path.lastPiece? path = some "."
  if Path.endsWithSlash path ∧ !isEntered then
    fs.checkWay path
    throw .isADirectory
  let location ← fs.locate path
  let empty := fs.received location (.bytes .empty)
  match fs.node? location with
  | some .directory => .error .isADirectory
  | some (.file _ isExecutable) =>
    if isEntered then .error .notADirectory
    else .ok (location, fs.set location (.file empty isExecutable))
  | none =>
    if isEntered then .error .notFound else .ok (location, fs.set location (.file empty false))

/-- Puts a `content` into the file at a location, if there is one. -/
def hold (fs : FileStore) (place : Location) (content : FileContent) : FileStore :=
  match fs.node? place with
  | some (.file _ isExecutable) => fs.set place (.file (fs.received place content) isExecutable)
  | _ => fs

/-- Writes to the file at a `place`, which is open and empty. If that `interrupts`, what was written
until then stays. -/
def fill (fs : FileStore) (place : Location) (content : FileContent) :
    Except SystemError Unit × FileStore :=
  match fs.interrupts place content with
  | none => (.ok (), fs.hold place content)
  | some interruption => (.error interruption.error, fs.hold place interruption.written)

/-- Writes a file, in the place of the one that is there: `create` opens it, and `fill` writes to
it. -/
def write (fs : FileStore) (path : String) (content : FileContent) :
    Except SystemError Unit × FileStore :=
  match fs.create path with
  | .error e => (.error e, fs)
  | .ok (place, fs) => fs.fill place content

/-- Makes a directory at a `path` where nothing is. The one above it has to be there. -/
def createDirectory (fs : FileStore) (path : String) : Except SystemError FileStore := do
  let location ← fs.locate path
  match fs.node? location with
  | some .directory => .error .alreadyExists
  | some (.file ..) =>
    .error (if Path.lastPiece? path = some "." then .notADirectory else .alreadyExists)
  | none =>
    if Path.lastPiece? path = some "." then .error .notFound
    else .ok (fs.set location .directory)

/-- Makes the directory at the first path by `createDirectory`, and before that those at the other
ones as far as they are not there. What was made stays if that fails. -/
def createAll (fs : FileStore) : (paths : List String) → Except SystemError Unit × FileStore
  | [] => (.ok (), fs)
  | path :: above =>
    match fs.createDirectory path with
    | .ok fs => (.ok (), fs)
    | .error .notFound =>
      match fs.createAll above with
      | (.error e, fs) => (.error e, fs)
      | (.ok (), fs) =>
        match fs.createDirectory path with
        | .ok fs => (.ok (), fs)
        | .error e => (if fs.isDirectory path then .ok () else .error e, fs)
    | .error e => (if fs.isDirectory path then .ok () else .error e, fs)

/-- Makes a directory at a `path` and those above it by `createAll`, as far as they are not there
yet. -/
def createDirectories (fs : FileStore) (path : String) : Except SystemError Unit × FileStore :=
  if Path.parts path = [] then (.ok (), fs) else fs.createAll (path :: Path.ancestors path)

/-- Removes the file at a `path`. -/
def removeFile (fs : FileStore) (path : String) : Except SystemError FileStore := do
  match ← fs.find path with
  | .directory => .error .isADirectory
  | .file .. =>
    let location ← fs.locate path
    .ok { fs with nodes := fs.nodes.filterKeys (· ≠ location) }

/-- The files without all that is below a `location`. -/
def emptied (fs : FileStore) (location : Location) : FileStore :=
  { fs with
    nodes := fs.nodes.filterKeys fun place => !location.isPrefixOf place || location == place }

/-- Removes all that is in a directory and then the directory itself. It stays if its `path` leads
through what was in it, and it is an error if the path ends with a dot. -/
def removeDirectory (fs : FileStore) (path : String) : Except SystemError Unit × FileStore :=
  match fs.find path, fs.locate path with
  | .ok .directory, .ok location =>
    let fs := fs.emptied location
    if !fs.isDirectory path then (.ok (), fs)
    else if Path.lastPiece? path = some "." then (.error .invalidArgument, fs)
    else (.ok (), { fs with nodes := fs.nodes.filterKeys (· ≠ location) })
  | .ok _, _ => (.error .notADirectory, fs)
  | .error e, _ => (.error e, fs)

/-- All that is below a `location`, by the parts that lead there from it. -/
def below (fs : FileStore) (location : Location) : List (List String × FileNode) :=
  fs.nodes.entries.filterMap fun (place, node) =>
    if location.isPrefixOf place && location ≠ place then some (place.drop location.length, node)
    else none

end FileStore

end MappingTables
