import MappingTables.Files.OpenArchive
import MappingTables.Format.Dialect
import MappingTables.Identity.TableKey
import MappingTables.Reorder

/-!
# Mappings in files and archives

Reading tables from files and from members of archives, finding out their dialect and the identity
of their content, and writing tables to files.
-/

namespace MappingTables

open Format

/-- What can be read of a `member` of an archive. -/
def openMember (path member : String) : Action Input := do
  let archive ← Action.openArchive (.openArchive path) (.readArchive path) path
  within (.archiveMember member path) (archive.member member)

namespace MappingsFile

/-- Opens a file at a `path` and reads what is in it by `read`, in a context for `reading`. -/
def readIn {α : Type} (reading : Context) (read : Input → Except Failure α) (path : String) :
    Action α := do
  let input ← within (.openMappings path) (Action.openInput path)
  Step.ofExcept (within reading (read input))

/-- The table in a file of either dialect at a `path`. -/
def read (path : String) : Action Table :=
  readIn (.readMappings path) readInput path

/-- The table in a file of the plain dialect at a `path`, by `Plain.readInput`. -/
def readPlain (path : String) : Action Table :=
  readIn (.readPlain path) Plain.readInput path

/-- The table in a file of the nested dialect at a `path`, by `Nested.readInput`. -/
def readNested (path : String) : Action Table :=
  readIn (.readNested path) Nested.readInput path

/-- The dialect of a file at a `path`, by `Dialect.detect`. -/
def detect (path : String) : Action Dialect := do
  let header ← readIn (.readMappings path) readHeaderLine path
  Step.ofExcept (within (.detectFormat path) (Dialect.detect header))

/-- The table in a `member` of an archive. -/
def readMember (path member : String) : Action Table := do
  let input ← openMember path member
  Step.ofExcept (within (.readMappingsMember member path) (readInput input))

/-- Writes a table to a file in a `dialect`, in the place of the one that is there. That one is gone
also if the table cannot be written. -/
def write (dialect : Dialect) (t : Table) (path : String) : Action Unit := do
  Action.writeIn (.createMappings path) (.writeMappings path) path
    (.bytes (dialect.write t).toUTF8)
  (dialect.notices t).forM Action.notice

end MappingsFile

namespace Source

/-- The source that is a file at a `path`. -/
def ofFile (path : String) : Action Source := do
  let bytes ← within (.readSource path) do
    let input ← Action.openInput path
    Step.ofExcept input.all
  return .ofBytes path none bytes

/-- The source that is a `member` of an archive. -/
def ofMember (path member : String) : Action Source := do
  let input ← openMember path member
  let bytes ← Step.ofExcept (within (.readArchiveMember member path) input.all)
  return .ofBytes path (some member) bytes

/-- The table that is in the place of the source now, at its `path`. -/
def read (s : Source) : Action Table :=
  match s.member with
  | some member => MappingsFile.readMember s.path member
  | none => MappingsFile.read s.path

/-- The key of the table of a source, switched to a source namespace with a `label`. -/
def switchedKey (s : Source) (label : String) : TableKey :=
  (TableKey.ofSource s).step ("switch to " ++ label)

/-- The table of a source under its `switchedKey`, switched to a source namespace and shared by all
who ask for it. -/
def getOrRead (s : Source) (label : String) : Action SharedTable :=
  Action.getOrCreate (s.switchedKey label).text do
    let t ← s.read
    Action.ofNoted (t.switchSource label)

end Source

end MappingTables
