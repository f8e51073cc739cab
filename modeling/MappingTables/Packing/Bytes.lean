/-!
# Numbers in bytes

Numbers are written in a fixed count of bytes, the lowest one first.

* `littleEndian`: the bytes of a number.
* `ofLittleEndian`: the number that bytes write.
* `slice?`, `number?`: bytes, and the number in them, at a place of larger data.
-/

namespace MappingTables.Packing

/-- A number in the given `count` of bytes, the lowest one first. -/
def littleEndian (count n : Nat) : List UInt8 :=
  (List.range count).map fun i => UInt8.ofNat (n >>> (8 * i))

/-- The number that `bytes` write, the lowest one first. -/
def ofLittleEndian (bytes : List UInt8) : Nat :=
  bytes.foldr (fun b n => b.toNat + 256 * n) 0

/-- Some bytes of larger `data`, if all of them are there. -/
def slice? (data : ByteArray) (start length : Nat) : Option ByteArray :=
  if start + length ≤ data.size then some (data.extract start (start + length)) else none

/-- The number in some bytes of larger `data`, if all of them are there. -/
def number? (data : ByteArray) (start length : Nat) : Option Nat :=
  (slice? data start length).map fun bytes => ofLittleEndian bytes.data.toList

example : ofLittleEndian (littleEndian 4 0x06054b50) = 0x06054b50 := by decide

end MappingTables.Packing
