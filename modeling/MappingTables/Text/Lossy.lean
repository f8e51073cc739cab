import MappingTables.Text.Lines

/-!
# Texts from faulty bytes

Bytes that are no well-formed UTF-8 still stand for a text, in which each faulty sequence is a
replacement character. A sequence is faulty up to the first byte that cannot follow in it.

* `decodeLossy`: the text that bytes stand for.
-/

namespace MappingTables.Text

/-- The bytes that can follow a first byte, each from a range. -/
def followers (first : UInt8) : List (UInt8 × UInt8) :=
  let any := (0x80, 0xbf)
  if 0xc2 ≤ first ∧ first ≤ 0xdf then [any]
  else if first = 0xe0 then [(0xa0, 0xbf), any]
  else if first = 0xed then [(0x80, 0x9f), any]
  else if 0xe1 ≤ first ∧ first ≤ 0xef then [any, any]
  else if first = 0xf0 then [(0x90, 0xbf), any, any]
  else if 0xf1 ≤ first ∧ first ≤ 0xf3 then [any, any, any]
  else if first = 0xf4 then [(0x80, 0x8f), any, any]
  else []

/-- How many bytes are in their ranges, up to the first one that is not. -/
def countFitting : List UInt8 → List (UInt8 × UInt8) → Nat
  | b :: bytes, (low, high) :: ranges =>
    if low ≤ b ∧ b ≤ high then 1 + countFitting bytes ranges else 0
  | _, _ => 0

/-- The text that bytes stand for. The first argument bounds the number of steps. -/
def decodeLossyFrom : Nat → List UInt8 → List Char
  | 0, _ => []
  | _, [] => []
  | steps + 1, first :: rest =>
    let count := countFitting rest (followers first)
    let char :=
      match decode? (first :: rest.take count) with
      | some s => s.toList
      | none => ['\ufffd']
    char ++ decodeLossyFrom steps (rest.drop count)

/-- The text that `bytes` stand for, with replacement characters for those that are no UTF-8. -/
def decodeLossy (bytes : List UInt8) : String :=
  String.ofList (decodeLossyFrom bytes.length bytes)

example : decodeLossy [0x78, 0xff, 0xe2, 0x82, 0x41] = "x\ufffd\ufffdA" := by decide +kernel

end MappingTables.Text
