import MappingTables.Packing.Fault

/-!
# Reading packed data

Unpacking reads numbers of some bits, one after the other, and writes bytes. A `Reader` does both;
if it fails, what it wrote before is still there.

* `bit`, `number`: bits from the lowest one of each byte on, and numbers with their lowest bit
  first.
* `highBit`, `highNumber`: bits from the highest one of each byte on, and numbers with their highest
  bit first.
* `byte`, `littleEndian`, `bigEndian`: whole bytes.
* `repeatEarlier`: writes bytes again that were written before.
* `endingIn`, `limitedTo`: readers for a part of the data.
-/

namespace MappingTables.Packing

/-- What is read. -/
structure Packed where
  data : ByteArray
  /-- The fault that it is if the data end too early. -/
  ends : Fault

/-- How far the reading is. -/
structure Progress where
  /-- The number of bits that were read. -/
  position : Nat := 0
  /-- What was written. -/
  output : ByteArray := ByteArray.empty

/-- Reads `Packed` data and writes bytes. -/
abbrev Reader (α : Type) := ReaderT Packed (EStateM Fault Progress) α

namespace Reader

/-- What the `reader` writes, and the fault in which it ends. -/
def unpack (reader : Reader Unit) (packed : Packed) : Unpacked :=
  match (ReaderT.run reader packed).run {} with
  | .ok _ progress => { bytes := progress.output }
  | .error fault progress => { bytes := progress.output, fault := some fault }

/-- The byte in which the next bit stands. -/
def currentByte : Reader Nat := do
  let packed ← read
  match packed.data[(← get).position / 8]? with
  | some byte => return byte.toNat
  | none => throw packed.ends

/-- Passes over bits. -/
def advance (count : Nat) : Reader Unit :=
  modify fun progress => { progress with position := progress.position + count }

/-- The next bit, from the lowest bit of each byte on. -/
def bit : Reader Nat := do
  let byte ← currentByte
  let position := (← get).position
  advance 1
  return (byte >>> (position % 8)) % 2

/-- The next bit, from the highest bit of each byte on. -/
def highBit : Reader Nat := do
  let byte ← currentByte
  let position := (← get).position
  advance 1
  return (byte >>> (7 - position % 8)) % 2

/-- A number of the given count of bits, the lowest one first. -/
def number : Nat → Reader Nat
  | 0 => return 0
  | count + 1 => do
    let low ← bit
    return low + 2 * (← number count)

/-- A number that starts with the bits of `high` and has the given count of bits more, the highest
one first. -/
def highNumberFrom : (high count : Nat) → Reader Nat
  | high, 0 => return high
  | high, count + 1 => do highNumberFrom (2 * high + (← highBit)) count

/-- A number of the given `count` of bits, the highest one first. -/
def highNumber (count : Nat) : Reader Nat :=
  highNumberFrom 0 count

/-- Passes over the rest of a byte that was read in part. -/
def alignToByte : Reader Unit :=
  modify fun progress => { progress with position := (progress.position + 7) / 8 * 8 }

/-- The next byte, where the last one was read to its end. -/
def byte : Reader Nat := do
  let byte ← currentByte
  advance 8
  return byte

/-- A number of the given count of bytes, the lowest one first. -/
def littleEndian : Nat → Reader Nat
  | 0 => return 0
  | count + 1 => do
    let low ← byte
    return low + 256 * (← littleEndian count)

/-- A number that starts with the bytes of `high` and has the given count of bytes more, the highest
one first. -/
def bigEndianFrom : (high count : Nat) → Reader Nat
  | high, 0 => return high
  | high, count + 1 => do bigEndianFrom (256 * high + (← byte)) count

/-- A number of the given `count` of bytes, the highest one first. -/
def bigEndian (count : Nat) : Reader Nat :=
  bigEndianFrom 0 count

/-- Whether all of the data were read. -/
def isAtEnd : Reader Bool := do
  return (← read).data.size ≤ (← get).position / 8

/-- The number of bytes that were read. -/
def place : Reader Nat := do
  return (← get).position / 8

/-- The bytes that were read from a place on. -/
def since (start : Nat) : Reader ByteArray := do
  return (← read).data.extract start (← place)

/-- Reads, where data that end too early have another `fault`. -/
def endingIn {α : Type} (fault : Fault) (reader : Reader α) : Reader α :=
  withReader (fun packed => { packed with ends := fault }) reader

/-- Reads with no more than the given number of bytes left. -/
def limitedTo {α : Type} (size : Nat) (reader : Reader α) : Reader α := do
  let stop := (← place) + size
  withReader (fun packed => { packed with data := packed.data.extract 0 stop }) reader

/-- It is a `fault` if something does not hold. -/
def require (holds : Bool) (fault : Fault) : Reader Unit :=
  if holds then pure () else throw fault

/-- How many bytes were written. -/
def written : Reader Nat := do
  return (← get).output.size

/-- Writes a `byte`. -/
def write (byte : UInt8) : Reader Unit :=
  modify fun progress => { progress with output := progress.output.push byte }

/-- Copies bytes as they are. -/
def copyBytes : Nat → Reader Unit
  | 0 => return
  | count + 1 => do
    write (UInt8.ofNat (← byte))
    copyBytes count

/-- Repeats the last byte of the bytes with the given distance to the end, `length` times. Before
the first byte there are only zeros. -/
def repeatFrom (output : ByteArray) (distance : Nat) : (length : Nat) → ByteArray
  | 0 => output
  | length + 1 =>
    let byte :=
      if distance ≤ output.size then (output[output.size - distance]?).getD 0 else 0
    repeatFrom (output.push byte) distance length

/-- Writes bytes again that were written before. Each is written before the next one is looked up,
so that the bytes may overlap those that they repeat. -/
def repeatEarlier (distance length : Nat) : Reader Unit :=
  modify fun progress => { progress with output := repeatFrom progress.output distance length }

end Reader

end MappingTables.Packing
