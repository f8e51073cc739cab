import MappingTables.Packing.Bytes
import MappingTables.Packing.Checksum
import MappingTables.Text.Lines
import MappingTables.Zip.Name

/-!
# Entries of a directory

An archive has a directory at its end. Each entry of it says where the data of a member are, how
they are packed and what the member is called. Extra fields change some of that: they give numbers
that are too large for their place, a name in UTF-8, or how the data are encrypted.

* `Zip.Entry.read?`: reads an entry.
-/

namespace MappingTables.Zip

open Packing

/-- An entry of a directory. -/
structure Entry where
  name : String
  /-- The number of the way in which the data are packed. -/
  method : Nat
  /-- Whether the data are encrypted. -/
  isEncrypted : Bool
  /-- The checksum of what the data stand for. -/
  checksum : Nat
  /-- The size of the data. -/
  packedSize : Nat
  /-- The size of what the data stand for. -/
  size : Nat
  /-- Where the header of the data stands. -/
  start : Nat
deriving DecidableEq, Repr

/-- An entry while its extra fields are read. -/
structure Draft where
  entry : Entry
  /-- The name as it is written. -/
  rawName : List UInt8
  /-- The comment, in UTF-8. -/
  comment : List UInt8
  /-- Whether it is said how the data are encrypted. -/
  hasEncryption : Bool := false
  /-- What is left of the extra fields. -/
  fields : List UInt8

/-- Why extra fields are not read to their end. -/
inductive FieldFault where
  /-- A field is longer than what is left. That is no fault of the entry. -/
  | ended
  /-- A field is not as it has to be. -/
  | refused

/-- Reads extra fields into a `Draft`. What they changed before a fault stays changed. -/
abbrev FieldReader (α : Type) := EStateM FieldFault Draft α

/-- The next `count` bytes of the extra fields. -/
def takeBytes (count : Nat) : FieldReader (List UInt8) := do
  let bytes := (← get).fields
  if bytes.length < count then throw .ended
  modify fun draft => { draft with fields := bytes.drop count }
  return bytes.take count

/-- The next number of the extra fields, in `count` bytes. -/
def takeNumber (count : Nat) : FieldReader Nat := do
  return ofLittleEndian (← takeBytes count)

/-- Goes on only if something holds. -/
def require (holds : Bool) : FieldReader Unit :=
  if holds then pure () else throw .refused

/-- The number that is written where the right one is too large. -/
def wideNumber : Nat :=
  0xffffffff

/-- Reads numbers that are too large for their place. -/
def readWideNumbers (size : Nat) : FieldReader Unit := do
  let read (value : Nat) (change : Nat → Entry → Entry) : FieldReader Nat := do
    if size < 24 ∧ value ≠ wideNumber then return 0
    let number ← takeNumber 8
    modify fun draft => { draft with entry := change number draft.entry }
    return 8
  let entry := (← get).entry
  let a ← read entry.size fun size entry => { entry with size }
  let b ← read entry.packedSize fun packedSize entry => { entry with packedSize }
  let c ← read entry.start fun start entry => { entry with start }
  require (a + b + c ≤ size)
  let _ ← takeBytes (size - (a + b + c))

/-- Reads times to a tenth of a microsecond. -/
def readFineTimes (size : Nat) : FieldReader Unit := do
  require (size = 32)
  let _ ← takeNumber 4
  require ((← takeNumber 2) = 1)
  require ((← takeNumber 2) = 24)
  let _ ← takeBytes 24

/-- Reads times to a second. The first byte says which of three there are. -/
def readTimes (size : Nat) : FieldReader Unit := do
  let flags ← takeNumber 1
  let count := ((List.range 8).filter fun i => flags.testBit i).length
  require (size = 5 || size = 1 + 4 * count)
  require (flags < 8)
  let _ ← takeBytes (size - 1)

/-- Reads how the data are encrypted, and how they are packed before that. -/
def readEncryption (size : Nat) : FieldReader Unit := do
  require (size = 7)
  let version ← takeNumber 2
  let vendor ← takeNumber 2
  let strength ← takeNumber 1
  let method ← takeNumber 2
  require (vendor = 0x4541 && (version = 1 || version = 2))
  require (1 ≤ strength && strength ≤ 3)
  modify fun draft => { draft with hasEncryption := true, entry := { draft.entry with method } }

/-- Reads a text in UTF-8 that takes the place of another one, of which the checksum is given. -/
def readText (size : Nat) (replaced : Draft → List UInt8) : FieldReader (List UInt8 × String) := do
  let _ ← takeNumber 1
  let expected ← takeNumber 4
  require (5 ≤ size)
  let bytes ← takeBytes (size - 5)
  require (expected = (Packing.checksum ⟨(replaced (← get)).toArray⟩).toNat)
  match Text.decode? bytes with
  | some text => return (bytes, text)
  | none => throw .refused

/-- Reads one extra field. Those of an unknown kind mean nothing. -/
def readField : FieldReader Unit := do
  let kind ← takeNumber 2
  let size ← takeNumber 2
  match kind with
  | 0x0001 => readWideNumbers size
  | 0x000a => readFineTimes size
  | 0x5455 => readTimes size
  | 0x9901 => readEncryption size
  | 0x6375 =>
    let (comment, _) ← readText size Draft.comment
    modify fun draft => { draft with comment }
  | 0x7075 =>
    let (rawName, name) ← readText size Draft.rawName
    modify fun draft => { draft with rawName, entry := { draft.entry with name } }
  | _ =>
    let _ ← takeBytes size

/-- Reads extra fields up to the end. The first argument bounds their number. -/
def readFields : Nat → FieldReader Unit
  | 0 => return
  | count + 1 => do
    if (← get).fields = [] then return
    readField
    readFields count

/-- The `draft` with what its extra fields say, if they are as they have to be. -/
def Draft.complete? (draft : Draft) : Option Draft :=
  match (readFields draft.fields.length).run draft with
  | .ok () draft => some draft
  | .error .ended draft => some draft
  | .error .refused _ => none

/-- How an entry starts. -/
def entryMark : Nat := 0x02014b50

/-- The number that stands for packed data that are encrypted in the newer way. -/
def encryptedMethod : Nat := 99

/-- Reads the entry at a place, and gives the place after it. What it says about places is too small
by `shift`. -/
def Entry.read? (data : ByteArray) (shift place : Nat) : Option (Entry × Nat) := do
  if (← number? data place 4) ≠ entryMark then none
  let flags ← number? data (place + 8) 2
  let nameSize ← number? data (place + 28) 2
  let extraSize ← number? data (place + 30) 2
  let commentSize ← number? data (place + 32) 2
  let isUnicode := flags.testBit 11
  let rawName := (← slice? data (place + 46) nameSize).data.toList
  let fields := (← slice? data (place + 46 + nameSize) extraSize).data.toList
  let comment := (← slice? data (place + 46 + nameSize + extraSize) commentSize).data.toList
  let entry : Entry :=
    { name := decodeName isUnicode rawName
      method := ← number? data (place + 10) 2
      isEncrypted := flags.testBit 0
      checksum := ← number? data (place + 16) 4
      packedSize := ← number? data (place + 20) 4
      size := ← number? data (place + 24) 4
      start := ← number? data (place + 42) 4 }
  let draft : Draft :=
    { entry, rawName, fields
      comment := (decodeName isUnicode comment).toUTF8.data.toList }
  let draft ← draft.complete?
  if draft.entry.method = encryptedMethod ∧ !draft.hasEncryption then none
  let entry :=
    { draft.entry with
      isEncrypted := draft.entry.isEncrypted || draft.hasEncryption
      start := draft.entry.start + shift }
  return (entry, place + 46 + nameSize + extraSize + commentSize)

end MappingTables.Zip
