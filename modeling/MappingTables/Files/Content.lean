import MappingTables.Files.FileStore
import MappingTables.Format.Input
import MappingTables.Zip.Writer

/-!
# What files hold

A file is read as bytes, or it is opened as an archive. An archive is listed when it is opened, and
what its members hold is read later from the same file, which may have changed since then.

* `FileContent.toBytes`: the bytes of a file.
* `FileContent.listing?`: the members of a file that is opened as an archive.
* `Listing.open?`: what can be read of a member.
-/

namespace MappingTables

/-- The bytes of a file that holds a `FileContent`. -/
def FileContent.toBytes : FileContent → ByteArray
  | .bytes content => content
  | .archive members => Zip.write members.entries
  | .sink => .empty

/-- The members that an archive has when it is opened. -/
inductive Listing where
  /-- Those of an archive that was made here. -/
  | made (members : Archive)
  /-- Those that the directory in its bytes lists. -/
  | listed (entries : OrderedMap String Zip.Entry)

/-- The members of a file that is opened as an archive, if it is one: its `Listing`. -/
def FileContent.listing? : FileContent → Option Listing
  | .archive members => some (.made members)
  | .bytes content => (Zip.entries? content).map .listed
  | .sink => none

/-- What can be read of `unpacked` data. -/
def Input.ofUnpacked (unpacked : Packing.Unpacked) : Input where
  bytes := unpacked.bytes
  fault := unpacked.fault.map .unpacking

namespace Listing

/-- Whether there is a `member` of a name. -/
def contains (listing : Listing) (member : String) : Bool :=
  match listing with
  | made members => members.contains member
  | listed entries => entries.contains member

/-- What can be read of a `member`, if it can be opened in what the file holds now. An archive that
was made here can only be read as long as it is one. -/
def open? (listing : Listing) (member : String) (content : FileContent) : Option Input :=
  match listing, content with
  | made _, .archive members => (members.get? member).map fun bytes => { bytes }
  | made _, _ => none
  | listed entries, content => do
    let unpacked ← (← entries.get? member).open? content.toBytes
    return .ofUnpacked unpacked

end Listing

/-- All members of a file with the given `content` that is opened as an archive, if each of them can
be read. -/
def FileContent.members? (content : FileContent) : Option (List (String × ByteArray)) := do
  match ← content.listing? with
  | .made members => return members.entries
  | .listed entries =>
    entries.entries.mapM fun (name, entry) => do
      let unpacked ← entry.open? content.toBytes
      if unpacked.fault.isSome then none
      return (name, unpacked.bytes)

end MappingTables
