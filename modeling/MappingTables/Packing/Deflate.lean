import MappingTables.Packing.PrefixCode

/-!
# Deflated data

Deflated data consist of blocks, in which symbols of a prefix code stand for bytes and for
repetitions of bytes that came before. There are two variants, which differ in how long and how far
away a repetition can be.

* `Deflate.unpack`: what deflated data stand for.
* `Deflate.unpackWide`: the same for the wide variant, in which an early end is no fault.
-/

namespace MappingTables.Packing.Deflate

open Reader

/-- How repetitions are written. -/
structure Variant where
  /-- The least length for each symbol that stands for a repetition, and how many more bits give
  it. -/
  lengths : Array (Nat × Nat)
  /-- The least distance for each symbol of a distance, and how many more bits give it. -/
  distances : Array (Nat × Nat)
  /-- How many bytes are unpacked at once. -/
  window : Nat
  /-- The fault of data that end too early. -/
  ends : Fault
  /-- The fault of data that stand for nothing. -/
  corrupt : Fault

/-- The lengths that both variants have. -/
def commonLengths : Array (Nat × Nat) := #[
  (3, 0), (4, 0), (5, 0), (6, 0), (7, 0), (8, 0), (9, 0), (10, 0), (11, 1), (13, 1), (15, 1),
  (17, 1), (19, 2), (23, 2), (27, 2), (31, 2), (35, 3), (43, 3), (51, 3), (59, 3), (67, 4),
  (83, 4), (99, 4), (115, 4), (131, 5), (163, 5), (195, 5), (227, 5)]

/-- The distances that both variants have. -/
def commonDistances : Array (Nat × Nat) := #[
  (1, 0), (2, 0), (3, 0), (4, 0), (5, 1), (7, 1), (9, 2), (13, 2), (17, 3), (25, 3), (33, 4),
  (49, 4), (65, 5), (97, 5), (129, 6), (193, 6), (257, 7), (385, 7), (513, 8), (769, 8),
  (1025, 9), (1537, 9), (2049, 10), (3073, 10), (4097, 11), (6145, 11), (8193, 12),
  (12289, 12), (16385, 13), (24577, 13)]

/-- The usual variant. -/
def Variant.usual : Variant where
  lengths := commonLengths.push (258, 0)
  distances := commonDistances
  window := 32768
  ends := .deflateEnds
  corrupt := .deflateCorrupt

/-- The variant with longer repetitions from farther away. -/
def Variant.wide : Variant where
  lengths := commonLengths.push (3, 16)
  distances := commonDistances ++ #[(49153, 14), (65537, 14)]
  window := 65536
  ends := .wideDeflateEnds
  corrupt := .wideDeflateCorrupt

section Blocks

variable (variant : Variant)

/-- A number that is given by a `symbol` and more bits. -/
def based (bases : Array (Nat × Nat)) (symbol : Nat) : Reader Nat :=
  match bases[symbol]? with
  | some (base, extra) => return base + (← number extra)
  | none => throw variant.corrupt

/-- Reads the symbols of a block. The first argument bounds their number. -/
def readSymbols (lengths distances : PrefixCode) : Nat → Reader Unit
  | 0 => throw variant.corrupt
  | steps + 1 => do
    let symbol ← lengths.symbol bit variant.corrupt
    if symbol < 256 then
      write (UInt8.ofNat symbol)
      readSymbols lengths distances steps
    else if symbol = 256 then return
    else
      let length ← based variant variant.lengths (symbol - 257)
      let distanceSymbol ← distances.symbol bit variant.corrupt
      let distance ← based variant variant.distances distanceSymbol
      repeatEarlier distance length
      readSymbols lengths distances steps

/-- Reads a block that is not compressed. It starts at a whole byte. -/
def readStored : Reader Unit := do
  alignToByte
  let length ← Reader.littleEndian 2
  let complement ← Reader.littleEndian 2
  if length + complement ≠ 0xffff then throw variant.corrupt
  copyBytes length

/-- The numbers of bits of the symbols in a block with the usual code. -/
def usualLengths : List Nat :=
  List.replicate 144 8 ++ List.replicate 112 9 ++ List.replicate 24 7 ++ List.replicate 8 8

/-- In which order the numbers of bits are given for the code of a code. -/
def codeOrder : List Nat :=
  [16, 17, 18, 0, 8, 7, 9, 6, 10, 5, 11, 4, 12, 3, 13, 2, 14, 1, 15]

/-- Reads the next numbers of bits, after those that are `known`. The last three symbols repeat the
last one, or say that there are no bits for a number of symbols. -/
def nextLengths (code : PrefixCode) (known : List Nat) : Reader (List Nat) := do
  let symbol ← code.symbol bit variant.corrupt
  if symbol = 16 then
    match known.getLast? with
    | some last => return List.replicate (3 + (← number 2)) last
    | none => throw variant.corrupt
  else if symbol = 17 then return List.replicate (3 + (← number 3)) 0
  else if symbol = 18 then return List.replicate (11 + (← number 7)) 0
  else return [symbol]

/-- Reads numbers of bits, up to a total of `size`. The first argument bounds the number of
steps. -/
def readLengths (code : PrefixCode) (size : Nat) : Nat → List Nat → Reader (List Nat)
  | 0, _ => throw variant.corrupt
  | steps + 1, known => do
    if known.length = size then return known
    else if size < known.length then throw variant.corrupt
    else readLengths code size steps (known ++ (← nextLengths variant code known))

/-- The code with the given numbers of bits. It has to be complete, unless it has a single symbol
and may be `short`. -/
def readableCode (short : Bool) (lengths : List Nat) : Reader PrefixCode := do
  let code := PrefixCode.ofLengths 15 lengths
  if code.isComplete || short && code.symbols.size ≤ 1 then return code
  else throw variant.corrupt

/-- Reads the codes of a block that has its own. -/
def readCodes : Reader (PrefixCode × PrefixCode) := do
  let lengthCount := 257 + (← number 5)
  let distanceCount := 1 + (← number 5)
  let codeCount := 4 + (← number 4)
  if 286 < lengthCount || variant.distances.size < distanceCount then throw variant.corrupt
  let given ← (codeOrder.take codeCount).mapM fun symbol => return (symbol, ← number 3)
  let code ← readableCode variant false
    ((List.range 19).map fun symbol => (given.lookup symbol).getD 0)
  let lengths ← readLengths variant code (lengthCount + distanceCount)
    (lengthCount + distanceCount + 1) []
  return (← readableCode variant true (lengths.take lengthCount),
    ← readableCode variant true (lengths.drop lengthCount))

/-- Reads one block, and whether it is the last one. -/
def readBlock (steps : Nat) : Reader Bool := do
  let last ← bit
  match ← number 2 with
  | 0 => readStored variant
  | 1 =>
    readSymbols variant (PrefixCode.ofLengths 15 usualLengths)
      (PrefixCode.ofLengths 15 (List.replicate 32 5)) steps
  | 2 => do
    let (lengths, distances) ← readCodes variant
    readSymbols variant lengths distances steps
  | _ => throw variant.corrupt
  return last = 1

/-- Reads blocks up to the last one. -/
def readBlocks (steps : Nat) : Nat → Reader Unit
  | 0 => throw variant.corrupt
  | count + 1 => do
    if ← readBlock variant steps then return
    readBlocks steps count

end Blocks

/-- What deflated `data` stand for. Each symbol and each block takes at least one bit. Of corrupt
data only those windows can be used that were complete before. -/
def unpack (variant : Variant) (data : ByteArray) : Unpacked :=
  let bits := 8 * data.size + 1
  let unpacked := (readBlocks variant bits bits).unpack { data, ends := variant.ends }
  if unpacked.fault = some variant.corrupt then
    { unpacked with
      bytes := unpacked.bytes.extract 0 (unpacked.bytes.size / variant.window * variant.window) }
  else unpacked

/-- What `data` of the wide variant stand for. If they end too early, they stand for what is
there. -/
def unpackWide (data : ByteArray) : Unpacked :=
  let unpacked := unpack .wide data
  if unpacked.fault = some .wideDeflateEnds then { bytes := unpacked.bytes } else unpacked

end MappingTables.Packing.Deflate
