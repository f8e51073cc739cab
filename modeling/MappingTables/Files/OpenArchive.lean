import MappingTables.Host

/-!
# Opening files and archives

* `Action.openInput`: opens a file to read it.
* `Action.openArchive`: opens a file as an archive.
* `OpenArchive.member`: what can be read of a member.
-/

namespace MappingTables

/-- A file that is open as an archive. -/
structure OpenArchive where
  path : String
  /-- Where the file is. -/
  location : Location
  /-- What the file held when it was opened. -/
  content : FileContent
  /-- The members that it had then. -/
  listing : Listing

namespace Action

/-- Opens a file at a `path` to read it. That a directory cannot be read shows only when it is
read. -/
def openInput (path : String) : Action Input := do
  match ← query (·.find path) with
  | .directory => return { bytes := ByteArray.empty, fault := some (.system .isADirectory) }
  | .file content _ => return { bytes := content.toBytes }

/-- Opens a file as an archive, in the context `opening` for the file and in `reading` for the
archive. -/
def openArchive (opening reading : Context) (path : String) : Action OpenArchive := do
  let node ← within opening (query (·.find path))
  let location ← within opening (query (·.locate path))
  match node with
  | .directory => within reading (fail .notAnArchive)
  | .file content _ =>
    match content.listing? with
    | some listing => return { path, location, content, listing }
    | none => within reading (fail .notAnArchive)

end Action

namespace OpenArchive

/-- What the file of an `archive` holds now. One that was removed is still there for those who have
it open. -/
def currentContent (archive : OpenArchive) (fs : FileStore) : FileContent :=
  match fs.node? archive.location with
  | some (.file content _) => content
  | _ => archive.content

/-- What can be read of a member. It is an error if there is none of the `name`. -/
def member (archive : OpenArchive) (name : String) : Action Input := do
  if !archive.listing.contains name then fail .memberNotFound
  match archive.listing.open? name (archive.currentContent (← get).files) with
  | some input => return input
  | none => fail .notAnArchive

end OpenArchive

end MappingTables
