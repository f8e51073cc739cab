import MappingTables.Zip.Member

/-!
# Writing archives

* `Zip.write`: an archive as bytes, with no member packed.
-/

namespace MappingTables.Zip

open Packing

/-- What is said about a member both before its data and in the directory: the version that is
needed to read it, that its `name` is in UTF-8, that it is not packed, no time, the earliest day,
its checksum, its size twice, and the sizes of its name and of nothing more. -/
def description (name : ByteArray) (content : ByteArray) : List UInt8 :=
  littleEndian 2 20 ++ littleEndian 2 0x800 ++ littleEndian 2 0 ++ littleEndian 2 0 ++
    littleEndian 2 0x21 ++ littleEndian 4 (checksum content).toNat ++
    littleEndian 4 content.size ++ littleEndian 4 content.size ++ littleEndian 2 name.size ++
    littleEndian 2 0

/-- A member with its data. -/
def dataBytes (name content : ByteArray) : List UInt8 :=
  littleEndian 4 dataMark ++ description name content ++ name.data.toList ++ content.data.toList

/-- The entry of a member whose data `start` at the given place. -/
def entryBytes (name content : ByteArray) (start : Nat) : List UInt8 :=
  littleEndian 4 entryMark ++ littleEndian 2 20 ++ description name content ++
    List.replicate 10 0 ++ littleEndian 4 start ++ name.data.toList

/-- The data of all `members`, and the entries of them. -/
def bodies (members : List (String × ByteArray)) : List UInt8 × List UInt8 :=
  members.foldl (fun (data, directory) (name, content) =>
    (data ++ dataBytes name.toUTF8 content,
      directory ++ entryBytes name.toUTF8 content data.length)) ([], [])

/-- An archive as bytes. -/
def write (members : List (String × ByteArray)) : ByteArray :=
  let (data, directory) := bodies members
  let count := littleEndian 2 members.length
  ⟨(data ++ directory ++ littleEndian 4 endMark ++ List.replicate 4 0 ++ count ++ count ++
    littleEndian 4 directory.length ++ littleEndian 4 data.length ++ [0, 0]).toArray⟩

end MappingTables.Zip
