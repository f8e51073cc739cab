import MappingTables.Packing.Bzip2
import MappingTables.Packing.Deflate
import MappingTables.Packing.Xz
import MappingTables.Packing.Zstd
import MappingTables.Zip.Directory

/-!
# Members of an archive

The data of a member stand after a header of their own. What the directory says about them counts,
not what the header does.

* `Zip.Entry.open?`: what the data of a member stand for.
-/

namespace MappingTables.Zip

open Packing

/-- The ways in which members are packed that can be read. -/
inductive Method where
  | stored
  | deflated
  | deflatedWide
  | bzip2
  | lzma
  | zstd
  | xz
deriving DecidableEq, Repr

/-- The `Method` by which a member is packed, by its number. -/
def Method.ofNat? : Nat → Option Method
  | 0 => some stored
  | 8 => some deflated
  | 9 => some deflatedWide
  | 12 => some bzip2
  | 14 => some lzma
  | 93 => some zstd
  | 95 => some xz
  | _ => none

/-- What packed `data` stand for that have the given `size` when they are unpacked. -/
def Method.unpack (size : Nat) (data : ByteArray) : Method → Unpacked
  | stored => { bytes := data }
  | deflated => Deflate.unpack .usual data
  | deflatedWide => Deflate.unpackWide data
  | bzip2 => Bzip2.unpack data
  | lzma => Lzma.unpack size data
  | zstd => Zstd.unpack data
  | xz => Xz.unpack data

/-- How the data of a member start. -/
def dataMark : Nat := 0x04034b50

/-- The packed `data` of a member, as far as they are there, if they start as they have to. -/
def Entry.packed? (entry : Entry) (data : ByteArray) : Option ByteArray := do
  if (← number? data entry.start 4) ≠ dataMark then none
  let nameSize ← number? data (entry.start + 26) 2
  let extraSize ← number? data (entry.start + 28) 2
  let start := entry.start + 30 + nameSize + extraSize
  return data.extract start (start + entry.packedSize)

/-- What can be read of a member's data with no other fault, which has to have the right
checksum. -/
def Entry.checked (entry : Entry) (unpacked : Unpacked) : Unpacked :=
  if unpacked.fault.isNone ∧ (Packing.checksum unpacked.bytes).toNat ≠ entry.checksum then
    { unpacked with fault := some .checksum }
  else unpacked

/-- What the `data` of a member stand for, if it can be opened: its data have to start as they have
to, must not be encrypted, and have to be packed in a known way. -/
def Entry.open? (entry : Entry) (data : ByteArray) : Option Unpacked := do
  if entry.isEncrypted then none
  let method ← Method.ofNat? entry.method
  return entry.checked (method.unpack entry.size (← entry.packed? data))

end MappingTables.Zip
