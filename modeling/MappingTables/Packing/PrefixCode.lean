import MappingTables.Packing.Reader

/-!
# Prefix codes

In a prefix code frequent symbols have fewer bits than rare ones, and no symbol's bits start with
those of another one. The numbers of bits alone determine the code: symbols with fewer bits come
first, and among those with as many bits the smaller symbol does.

* `PrefixCode.ofLengths`: the code for given numbers of bits.
* `PrefixCode.symbol`: reads a symbol.
-/

namespace MappingTables.Packing

/-- A prefix code. -/
structure PrefixCode where
  /-- How many symbols have each number of bits, from one bit on. -/
  counts : List Nat
  /-- The symbols, those with fewer bits first. -/
  symbols : Array Nat

namespace PrefixCode

/-- The code in which each symbol has the given number of bits, and none at all if that is 0. No
symbol has more than `longest` bits. -/
def ofLengths (longest : Nat) (lengths : List Nat) : PrefixCode where
  counts := (List.range longest).map fun i => lengths.count (i + 1)
  symbols :=
    ((List.range longest).flatMap fun i =>
      (lengths.zipIdx.filter fun (length, _) => length = i + 1).map Prod.snd).toArray

/-- How much is left of the `room` for symbols with no more bits, if symbols with more and more bits
take their share of it. -/
def roomLeft (room : Int) : (counts : List Nat) → Int
  | [] => room
  | count :: counts => roomLeft (2 * room - count) counts

/-- Whether all sequences of bits can be read in the `code`, and each in one way only. -/
def isComplete (code : PrefixCode) : Bool :=
  roomLeft 1 code.counts = 0

/-- Reads a symbol. `code` is what was read so far; of the symbols with one more bit the first one
has the code `first`, and the place `index` among all symbols. -/
def symbolFrom (nextBit : Reader Nat) (invalid : Fault) (symbols : Array Nat) :
    (counts : List Nat) → (code first index : Nat) → Reader Nat
  | [], _, _, _ => throw invalid
  | count :: counts, code, first, index => do
    let code := code + (← nextBit)
    if code < first + count then
      match symbols[index + (code - first)]? with
      | some symbol => return symbol
      | none => throw invalid
    else
      symbolFrom nextBit invalid symbols counts (2 * code) (2 * (first + count)) (index + count)

/-- Reads a symbol bit by bit. It is a fault if there is none. -/
def symbol (code : PrefixCode) (nextBit : Reader Nat) (invalid : Fault) : Reader Nat :=
  symbolFrom nextBit invalid code.symbols code.counts 0 0 0

end PrefixCode

end MappingTables.Packing
