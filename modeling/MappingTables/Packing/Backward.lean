import MappingTables.Packing.Reader

/-!
# Reading from the end

Some packed data are read from their last bit on. The last bit that is not zero only marks the end.
Before the first bit there are only zeros, and how many of those were read can be seen.

* `Backward.ofBytes?`: the start of the reading.
* `Backward.number`: a number, the highest bit of which stands last.
-/

namespace MappingTables.Packing

/-- Data that are read from the end. -/
structure Backward where
  data : ByteArray
  /-- How many bits are left. It is negative if more were read than there are. -/
  left : Int

namespace Backward

/-- Data to be read from before the mark of their end, if they have one. -/
def ofBytes? (data : ByteArray) : Option Backward :=
  match data.data.back? with
  | none => none
  | some last =>
    if last = 0 then none else some { data, left := 8 * (data.size - 1 : Nat) + last.toNat.log2 }

/-- The bit before the given number of bits from the start. -/
def bitBefore (data : ByteArray) (left : Int) : Nat :=
  let place := (left - 1).toNat
  if left ≤ 0 then 0 else (((data[place / 8]?).getD 0).toNat >>> (place % 8)) % 2

/-- A number that starts with the bits of `high` and has the given count of bits more. -/
def numberFrom (b : Backward) : (high count : Nat) → Nat × Backward
  | high, 0 => (high, b)
  | high, count + 1 =>
    { b with left := b.left - 1 }.numberFrom (2 * high + bitBefore b.data b.left) count

/-- The next number of the given `count` of bits. -/
def number (b : Backward) (count : Nat) : Nat × Backward :=
  b.numberFrom 0 count

/-- Whether all bits were read, and no more. -/
def isAtEnd (b : Backward) : Bool :=
  b.left == 0

end Backward

end MappingTables.Packing
