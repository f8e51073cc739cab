/-!
# A hash of 64 bits

The hash takes bytes in stripes of 32, each of which changes four lanes, and then what is left over
in words of eight, of four, and of single bytes.

* `hash64`: the hash of bytes.
-/

namespace MappingTables.Packing

namespace Hash

/-- The numbers by which the lanes are multiplied. -/
def prime (place : Nat) : UInt64 :=
  [0x9e3779b185ebca87, 0xc2b2ae3d27d4eb4f, 0x165667b19e3779f9, 0x85ebca77c2b2ae63,
    0x27d4eb2f165667c5].getD place 0

/-- Moves the bits of a number up, and those that leave it to its lower end. -/
def rotate (n : UInt64) (count : UInt64) : UInt64 :=
  (n <<< count) ||| (n >>> (64 - count))

/-- The number that `bytes` write, the lowest one first. -/
def word (bytes : List UInt8) : UInt64 :=
  bytes.foldr (fun b n => b.toUInt64 ||| (n <<< 8)) 0

/-- A `lane` after a word. -/
def round (lane input : UInt64) : UInt64 :=
  rotate (lane + input * prime 1) 31 * prime 0

/-- The first values of the lanes. -/
def lanes : List UInt64 :=
  [prime 0 + prime 1, prime 1, 0, 0 - prime 0]

/-- The lanes after as many stripes, and the bytes after them. -/
def stripes : (count : Nat) → List UInt64 → List UInt8 → List UInt64 × List UInt8
  | 0, lanes, bytes => (lanes, bytes)
  | count + 1, lanes, bytes =>
    stripes count
      (lanes.zipIdx.map fun (lane, i) => round lane (word ((bytes.drop (8 * i)).take 8)))
      (bytes.drop 32)

/-- The hash of stripes, made from the `lanes`. -/
def joined (lanes : List UInt64) : UInt64 :=
  let rotated :=
    (lanes.zip [1, 7, 12, 18]).foldl (fun sum (lane, count) => sum + rotate lane count) 0
  lanes.foldl (fun hash lane => (hash ^^^ round 0 lane) * prime 0 + prime 3) rotated

/-- The `hash` after less than 32 bytes more. -/
def rest : (steps : Nat) → (hash : UInt64) → List UInt8 → UInt64
  | 0, hash, _ => hash
  | steps + 1, hash, bytes =>
    match bytes with
    | [] => hash
    | b :: more =>
      if 8 ≤ bytes.length then
        rest steps (rotate (hash ^^^ round 0 (word (bytes.take 8))) 27 * prime 0 + prime 3)
          (bytes.drop 8)
      else if 4 ≤ bytes.length then
        rest steps (rotate (hash ^^^ word (bytes.take 4) * prime 0) 23 * prime 1 + prime 2)
          (bytes.drop 4)
      else rest steps (rotate (hash ^^^ b.toUInt64 * prime 4) 11 * prime 0) more

/-- Spreads the bits of a `hash`. -/
def spread (hash : UInt64) : UInt64 :=
  let hash := (hash ^^^ (hash >>> 33)) * prime 1
  let hash := (hash ^^^ (hash >>> 29)) * prime 2
  hash ^^^ (hash >>> 32)

end Hash

/-- The hash of `bytes`. -/
def hash64 (bytes : ByteArray) : UInt64 :=
  let (lanes, left) := Hash.stripes (bytes.size / 32) Hash.lanes bytes.data.toList
  let hash := if bytes.size < 32 then Hash.prime 4 else Hash.joined lanes
  Hash.spread (Hash.rest 32 (hash + bytes.size.toUInt64) left)

end MappingTables.Packing
