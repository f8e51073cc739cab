import MappingTables.Packing.PrefixCode

/-!
# Bzip2 data

Bzip2 data consist of blocks. Each holds the bytes of a part of the content in an order in which
equal bytes stand close together, and says at which of them the content starts. They are written by
how long ago they occurred last, and runs of the most recent byte by the length of the run. Before
all that, more than four equal bytes of the content were shortened to four and a number.

* `Bzip2.unpack`: what bzip2 data stand for.

Bits are taken from each byte starting with the highest one.
-/

namespace MappingTables.Packing.Bzip2

open Reader

/-- The `remainder` after one more bit. -/
def checkBit (remainder : UInt32) : UInt32 :=
  if remainder &&& 0x80000000 ≠ 0 then (remainder <<< 1) ^^^ 0x04c11db7 else remainder <<< 1

/-- The `remainder` after one more `byte`. -/
def checkByte (remainder : UInt32) (byte : UInt8) : UInt32 :=
  (List.range 8).foldl (fun r _ => checkBit r) (remainder ^^^ (byte.toUInt32 <<< 24))

/-- The checksum of `bytes`. -/
def checksum (bytes : ByteArray) : UInt32 :=
  bytes.data.foldl checkByte 0xffffffff ^^^ 0xffffffff

/-- Which items a list of bits selects, by their places from `start` on. -/
def places (start : Nat) (bits : List Nat) : List Nat :=
  ((bits.zipIdx start).filter fun (b, _) => b = 1).map Prod.snd

/-- Reads which bytes occur in a block: in which parts of sixteen bytes any of them does, and then
which ones. -/
def readAlphabet : Reader (List UInt8) := do
  let parts := places 0 (← (List.range 16).mapM fun _ => highBit)
  let bytes ← parts.mapM fun part => do
    return places (16 * part) (← (List.range 16).mapM fun _ => highBit)
  return bytes.flatten.map UInt8.ofNat

/-- Counts bits up to the first zero, of which there have to be less than `bound`. -/
def countOnes : (bound : Nat) → Reader Nat
  | 0 => throw .bzip2Corrupt
  | bound + 1 => do
    if (← highBit) = 0 then return 0
    return 1 + (← countOnes bound)

/-- Takes an item of a list to its start. -/
def moveToFront {α : Type} (items : List α) (place : Nat) : List α :=
  match items[place]? with
  | some item => item :: items.eraseIdx place
  | none => items

/-- Reads which of the `codes` is used for each group of fifty symbols, written by how long ago it
was used last. -/
def readSelectors (codes : Nat) : (count : Nat) → List Nat → Reader (List Nat)
  | 0, _ => return []
  | count + 1, recent => do
    let recent := moveToFront recent (← countOnes codes)
    return recent.headD 0 :: (← readSelectors codes count recent)

/-- Reads by how much a number of bits is greater than the last one. The first argument bounds the
number of steps. -/
def readChange : Nat → Int → Reader Int
  | 0, _ => throw .bzip2Corrupt
  | steps + 1, length => do
    if length < 1 ∨ 20 < length then throw .bzip2Corrupt
    if (← highBit) = 0 then return length
    readChange steps (if (← highBit) = 0 then length + 1 else length - 1)

/-- Reads the numbers of bits of symbols. -/
def readLengths (steps : Nat) : (count : Nat) → Int → Reader (List Nat)
  | 0, _ => return []
  | count + 1, last => do
    let length ← readChange steps last
    return length.toNat :: (← readLengths steps count length)

/-- Reads a code for the given number of `symbols`. -/
def readCode (steps symbols : Nat) : Reader PrefixCode := do
  let first ← highNumber 5
  return PrefixCode.ofLengths 20 (← readLengths steps symbols first)

/-- What was read of the symbols of a block. -/
structure Symbols where
  /-- How many symbols of the group are left. -/
  inGroup : Nat := 0
  /-- The code of the group. -/
  code : PrefixCode := ⟨[], #[]⟩
  /-- The codes of the other groups. -/
  groups : List PrefixCode
  /-- The bytes, the most recent one first. -/
  recent : List UInt8
  /-- The length of the run of the most recent byte so far. -/
  run : Nat := 0
  /-- By how much the next symbol of the run makes it longer, at least. -/
  weight : Nat := 1
  /-- The bytes that were read. -/
  bytes : ByteArray := ByteArray.empty

/-- Reads the next symbol. -/
def Symbols.next (s : Symbols) : Reader (Nat × Symbols) := do
  match s.inGroup, s.groups with
  | inGroup + 1, _ => return (← s.code.symbol highBit .bzip2Corrupt, { s with inGroup })
  | 0, code :: groups =>
    return (← code.symbol highBit .bzip2Corrupt, { s with inGroup := 49, code, groups })
  | 0, [] => throw .bzip2Corrupt

/-- Writes the run of the most recent byte. -/
def Symbols.endRun (s : Symbols) : Symbols :=
  let byte := s.recent.headD 0
  { s with
    run := 0
    weight := 1
    bytes := (List.range s.run).foldl (fun bytes _ => bytes.push byte) s.bytes }

/-- Reads the bytes of a block, of which there are at most `room`. The first argument bounds the
number of symbols. -/
def readSymbols (room alphabet : Nat) : Nat → Symbols → Reader ByteArray
  | 0, _ => throw .bzip2Corrupt
  | steps + 1, s => do
    let (symbol, s) ← s.next
    if symbol < 2 then
      let run := s.run + s.weight * (symbol + 1)
      if room < s.bytes.size + run then throw .bzip2Corrupt
      readSymbols room alphabet steps { s with run, weight := 2 * s.weight }
    else
      let s := s.endRun
      if symbol = alphabet + 1 then return s.bytes
      if room ≤ s.bytes.size then throw .bzip2Corrupt
      let recent := moveToFront s.recent (symbol - 1)
      readSymbols room alphabet steps { s with recent, bytes := s.bytes.push (recent.headD 0) }

/-- How many `bytes` are smaller than each one. -/
def smallerCounts (bytes : ByteArray) : Array Nat :=
  let counts := bytes.data.foldl (fun counts b => counts.modify b.toNat (· + 1))
    (Array.replicate 256 0)
  (counts.foldl (fun (sums, total) count => (sums.push total, total + count))
    ((#[] : Array Nat), 0)).1

/-- For each byte of the block, where the byte that follows it in the content stands: the `bytes`
that follow are in ascending order, and equal ones are in the order of those before them. -/
def followers (bytes : ByteArray) : Array Nat :=
  (bytes.data.toList.zipIdx.foldl (fun (follower, next) (b, place) =>
    (follower.setIfInBounds (next.getD b.toNat 0) place, next.modify b.toNat (· + 1)))
    (Array.replicate bytes.size 0, smallerCounts bytes)).1

/-- The `bytes` of a block in the order of the content, from the given `place` on. -/
def inOrder (bytes : ByteArray) (follower : Array Nat) : (count place : Nat) → ByteArray → ByteArray
  | 0, _, content => content
  | count + 1, place, content =>
    inOrder bytes follower count (follower.getD place 0) (content.push ((bytes[place]?).getD 0))

/-- Makes runs of more than four bytes long again. `last` is the last byte, and `run` how often it
came in a row. -/
def lengthen : List UInt8 → (last : UInt8) → (run : Nat) → ByteArray → ByteArray
  | [], _, _, content => content
  | b :: bytes, last, run, content =>
    if run = 4 then
      lengthen bytes last 0
        ((List.range b.toNat).foldl (fun content _ => content.push last) content)
    else if run ≠ 0 ∧ b = last then lengthen bytes last (run + 1) (content.push b)
    else lengthen bytes b 1 (content.push b)

/-- Reads a block after its mark. It has at most `room` bytes. -/
def readBlock (steps room : Nat) : Reader ByteArray := do
  let expected ← highNumber 32
  if (← highBit) = 1 then throw .bzip2Corrupt
  let start ← highNumber 24
  let alphabet ← readAlphabet
  let codeCount ← highNumber 3
  let groupCount ← highNumber 15
  if alphabet = [] ∨ codeCount < 2 ∨ 6 < codeCount ∨ groupCount = 0 then throw .bzip2Corrupt
  let selectors ← readSelectors codeCount groupCount (List.range codeCount)
  let codes ← (List.range codeCount).mapM fun _ => readCode steps (alphabet.length + 2)
  let groups := selectors.filterMap fun selector => codes[selector]?
  let bytes ← readSymbols room alphabet.length steps { groups, recent := alphabet }
  let follower := followers bytes
  if bytes.size ≤ start then throw .bzip2Corrupt
  let content := lengthen
    (inOrder bytes follower bytes.size (follower.getD start 0) ByteArray.empty).data.toList 0 0
    ByteArray.empty
  if (checksum content).toNat ≠ expected then throw .bzip2Corrupt
  return content

/-- Reads blocks up to the end. `total` is the checksum of those before. -/
def readBlocks (steps room : Nat) : Nat → (total : UInt32) → Reader Unit
  | 0, _ => throw .bzip2Corrupt
  | count + 1, total => do
    let mark ← highNumber 48
    if mark = 0x177245385090 then
      if (← highNumber 32) ≠ total.toNat then throw .bzip2Corrupt
    else if mark = 0x314159265359 then
      let content ← readBlock steps room
      modify fun progress => { progress with output := progress.output ++ content }
      readBlocks steps room count (((total <<< 1) ||| (total >>> 31)) ^^^ checksum content)
    else throw .bzip2Corrupt

/-- Reads bzip2 data. Each symbol and each block takes at least one bit. -/
def readAll : Reader Unit := do
  let bits := 8 * (← read).data.size + 1
  if (← highNumber 24) ≠ 0x425a68 then throw .bzip2Header
  let level ← byte
  if level < 0x31 ∨ 0x39 < level then throw .bzip2Header
  readBlocks bits (100000 * (level - 0x30)) bits 0

/-- What bzip2 `data` stand for. -/
def unpack (data : ByteArray) : Unpacked :=
  readAll.unpack { data, ends := .bzip2Ends }

end MappingTables.Packing.Bzip2
