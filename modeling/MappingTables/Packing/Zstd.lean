import MappingTables.Packing.Hash
import MappingTables.Packing.StateCode

/-!
# Zstandard data

Zstandard data consist of frames, and a frame of blocks. A block is given as it is, as one byte that
is repeated, or as bytes and sequences: each sequence takes some of the bytes and then repeats
earlier ones. The bytes are written in a prefix code, and the sequences in three state codes; both
are read from the end.

* `Zstd.unpack`: what Zstandard data stand for.
-/

namespace MappingTables.Packing.Zstd

open Reader

/-! ## The code of bytes -/

/-- A code of bytes: for each number of `bits` bits the byte with which its bits start, and how many
bits that byte has. -/
structure ByteCode where
  bits : Nat
  entries : Array (UInt8 × Nat)

/-- The weight of the last byte, which fills up the sum of all to a power of two, and the exponent
of that power. -/
def lastWeight? (weights : List Nat) : Option (Nat × Nat) :=
  let sum :=
    weights.foldl (fun sum weight => if weight = 0 then sum else sum + 1 <<< (weight - 1)) 0
  let bits := sum.log2 + 1
  let left := 1 <<< bits - sum
  if sum = 0 ∨ 11 < bits ∨ left ≠ 1 <<< left.log2 then none else some (left.log2 + 1, bits)

/-- The code in which bytes have given `weights`. A byte with a higher weight has fewer bits. -/
def ByteCode.ofWeights? (weights : List Nat) : Option ByteCode := do
  let (last, bits) ← lastWeight? weights
  let weights := weights ++ [last]
  if 256 < weights.length ∨ weights.count 1 < 2 ∨ weights.count 1 % 2 = 1 then none
  let entries := (List.range bits).flatMap fun i =>
    (weights.zipIdx.filter fun (weight, _) => weight = i + 1).flatMap fun (weight, byte) =>
      List.replicate (1 <<< i) (UInt8.ofNat byte, bits + 1 - weight)
  return { bits, entries := entries.toArray }

/-- Reads weights that are written in a state `code`, in turns from two states, until there are no
more bits. -/
def weightsFrom (code : StateCode) : (count : Nat) → (now other : CodeState) → Backward → List Nat
  | 0, _, _, _ => []
  | count + 1, now, other, b =>
    let (after, b) := code.next now b
    if b.left < 0 then [now.symbol, other.symbol]
    else now.symbol :: weightsFrom code count other after b

/-- Reads the weights of bytes. -/
def readWeights : Reader (List Nat) := do
  let size ← byte
  if 128 ≤ size then
    let count := size - 127
    let packed ← (List.range ((count + 1) / 2)).mapM fun _ => byte
    return (packed.flatMap fun b => [b / 16, b % 16]).take count
  else
    let stop := (← place) + size
    limitedTo size do
      let code ← StateCode.readShares .zstdCorrupt 13 6
      let start ← place
      advance (8 * (stop - start))
      match Backward.ofBytes? (← since start) with
      | none => throw .zstdCorrupt
      | some b =>
        let (first, b) := code.start b
        let (second, b) := code.start b
        let weights := weightsFrom code 255 first second b
        require (weights.length ≤ 255 && weights.all (· ≤ 11)) .zstdCorrupt
        return weights

/-- Reads the code of bytes. -/
def readByteCode : Reader ByteCode := do
  match ByteCode.ofWeights? (← readWeights) with
  | some code => return code
  | none => throw .zstdCorrupt

/-- Reads bytes in a `code`. -/
def decodeBytes (code : ByteCode) : (count : Nat) → Backward → ByteArray → ByteArray × Backward
  | 0, b, bytes => (bytes, b)
  | count + 1, b, bytes =>
    let (byte, used) := code.entries.getD (b.number code.bits).1 (0, 0)
    decodeBytes code count { b with left := b.left - used } (bytes.push byte)

/-- Reads a part of the bytes of a block, which has to take all of its data. -/
def readByteStream (code : ByteCode) (size count : Nat) : Reader ByteArray := do
  let start ← place
  let stop := start + size
  require (stop ≤ (← read).data.size) .zstdCorrupt
  advance (8 * size)
  match Backward.ofBytes? (← since start) with
  | none => throw .zstdCorrupt
  | some b =>
    let (bytes, b) := decodeBytes code count b ByteArray.empty
    require b.isAtEnd .zstdCorrupt
    return bytes

/-! ## Blocks -/

/-- What blocks of a frame take from those before them. -/
structure Memory where
  byteCode : Option ByteCode := none
  lengthCode : Option StateCode := none
  distanceCode : Option StateCode := none
  repetitionCode : Option StateCode := none
  /-- The last three distances. -/
  recent : List Nat := [1, 4, 8]

/-- Reads the bytes of a block that are written in a `code`, in one part or in four. -/
def readCodedBytes (code : ByteCode) (parts size count : Nat) : Reader ByteArray := do
  if parts = 1 then readByteStream code size count
  else
    let first ← Reader.littleEndian 2
    let second ← Reader.littleEndian 2
    let third ← Reader.littleEndian 2
    let share := (count + 3) / 4
    require (6 + first + second + third ≤ size && 3 * share ≤ count) .zstdCorrupt
    let a ← readByteStream code first share
    let b ← readByteStream code second share
    let c ← readByteStream code third share
    let d ← readByteStream code (size - 6 - first - second - third) (count - 3 * share)
    return a ++ b ++ c ++ d

/-- Reads the bytes of a block. The lowest bits of their header say how they are written, and how
large the header is. -/
def readBytes (memory : Memory) : Reader (ByteArray × Memory) := do
  let kind ← number 2
  let form ← number 2
  if kind < 2 then
    let count ←
      if form % 2 = 0 then do pure (form / 2 + 2 * (← number 4))
      else if form = 1 then number 12
      else number 20
    require (count ≤ 0x20000) .zstdCorrupt
    if kind = 0 then
      let bytes ← (List.range count).mapM fun _ => byte
      return (⟨(bytes.map UInt8.ofNat).toArray⟩, memory)
    else
      let b ← byte
      return (⟨Array.replicate count (UInt8.ofNat b)⟩, memory)
  else
    let bits := if form < 2 then 10 else if form = 2 then 14 else 18
    let count ← number bits
    let size ← number bits
    require (count ≤ 0x20000) .zstdCorrupt
    let start ← place
    let code ←
      if kind = 2 then readByteCode
      else match memory.byteCode with
        | some code => pure code
        | none => throw .zstdCorrupt
    let used := (← place) - start
    require (used ≤ size) .zstdCorrupt
    let bytes ← readCodedBytes code (if form = 0 then 1 else 4) (size - used) count
    return (bytes, { memory with byteCode := some code })

/-- The least length for each symbol of a number of bytes, and how many more bits give it. -/
def lengthBases : Array (Nat × Nat) :=
  (Array.range 16).map (·, 0) ++ #[
    (16, 1), (18, 1), (20, 1), (22, 1), (24, 2), (28, 2), (32, 3), (40, 3), (48, 4), (64, 6),
    (128, 7), (256, 8), (512, 9), (1024, 10), (2048, 11), (4096, 12), (8192, 13), (16384, 14),
    (32768, 15), (65536, 16)]

/-- The least length for each symbol of a repetition, and how many more bits give it. -/
def repetitionBases : Array (Nat × Nat) :=
  (Array.range 32).map (fun symbol => (symbol + 3, 0)) ++ #[
    (35, 1), (37, 1), (39, 1), (41, 1), (43, 2), (47, 2), (51, 3), (59, 3), (67, 4), (83, 4),
    (99, 5), (131, 7), (259, 8), (515, 9), (1027, 10), (2051, 11), (4099, 12), (8195, 13),
    (16387, 14), (32771, 15), (65539, 16)]

/-- The usual code of numbers of bytes. -/
def usualLengthCode : StateCode :=
  .ofShares 6 ([4, 3] ++ List.replicate 11 2 ++ [1, 1, 1] ++ List.replicate 9 2 ++ [3, 2] ++
    List.replicate 5 1 ++ List.replicate 4 (-1))

/-- The usual code of distances. -/
def usualDistanceCode : StateCode :=
  .ofShares 5 (List.replicate 6 1 ++ [2, 2, 2] ++ List.replicate 15 1 ++ List.replicate 5 (-1))

/-- The usual code of lengths of repetitions. -/
def usualRepetitionCode : StateCode :=
  .ofShares 6 ([1, 4, 3] ++ List.replicate 6 2 ++ List.replicate 37 1 ++ List.replicate 7 (-1))

/-- Reads a code of sequences: the usual one, one of a single symbol, a new one, or the last one. -/
def readSequenceCode (kind symbols longest : Nat) (usual : StateCode) (last : Option StateCode) :
    Reader StateCode := do
  match kind with
  | 0 => return usual
  | 1 => do
    let symbol ← byte
    require (symbol < symbols) .zstdCorrupt
    return .single symbol
  | 2 => StateCode.readShares .zstdCorrupt symbols longest
  | _ =>
    match last with
    | some code => return code
    | none => throw .zstdCorrupt

/-- The distance that a `number` stands for, and the last distances after it. The lowest numbers
stand for `recent` distances; after no bytes they stand for those one older. -/
def distanceOf (recent : List Nat) (number length : Nat) : Nat × List Nat :=
  if 3 < number then (number - 3, (number - 3) :: recent.take 2)
  else
    let use := if length = 0 then number else number - 1
    let distance := if use = 3 then recent.headD 0 - 1 else recent.getD use 0
    (distance, distance :: (recent.eraseIdx use).take 2)

/-- The states of the three codes. -/
structure States where
  length : CodeState
  distance : CodeState
  repetition : CodeState

/-- What is left to be read of a block. -/
structure Rest where
  memory : Memory
  /-- The bytes. -/
  bytes : ByteArray
  /-- How many of the bytes were taken. -/
  taken : Nat := 0

/-- Writes some of the bytes of a block. -/
def takeBytes (rest : Rest) (count : Nat) : Reader Rest := do
  require (rest.taken + count ≤ rest.bytes.size) .zstdCorrupt
  let some_ := rest.bytes.extract rest.taken (rest.taken + count)
  modify fun progress => { progress with output := progress.output ++ some_ }
  return { rest with taken := rest.taken + count }

/-- A number that is given by a `symbol` and more bits. -/
def based (bases : Array (Nat × Nat)) (symbol : Nat) (b : Backward) : Nat × Backward :=
  let (base, extra) := bases.getD symbol (0, 0)
  let (low, b) := b.number extra
  (base + low, b)

/-- Reads sequences. Nothing before the place `start` of the output can be repeated. -/
def readSequences (start : Nat) (lengths distances repetitions : StateCode) :
    (count : Nat) → States → Backward → Rest → Reader Rest
  | 0, _, b, rest => do
    require b.isAtEnd .zstdCorrupt
    return rest
  | count + 1, states, b, rest => do
    let (low, b) := b.number states.distance.symbol
    let (repetition, b) := based repetitionBases states.repetition.symbol b
    let (length, b) := based lengthBases states.length.symbol b
    let (distance, recent) :=
      distanceOf rest.memory.recent (1 <<< states.distance.symbol + low) length
    let rest ← takeBytes { rest with memory := { rest.memory with recent } } length
    require (0 < distance && distance ≤ (← written) - start) .zstdCorrupt
    repeatEarlier distance repetition
    if count = 0 then readSequences start lengths distances repetitions count states b rest
    else
      let (length, b) := lengths.next states.length b
      let (repetition, b) := repetitions.next states.repetition b
      let (distance, b) := distances.next states.distance b
      readSequences start lengths distances repetitions count
        { length, distance, repetition } b rest

/-- Reads the number of sequences. -/
def readSequenceCount : Reader Nat := do
  let first ← byte
  if first < 128 then return first
  else if first < 255 then return 0x100 * (first - 128) + (← byte)
  else return 0x7f00 + (← Reader.littleEndian 2)

/-- Reads a block of bytes and sequences, which takes all the data. -/
def readPacked (start : Nat) (memory : Memory) : Reader Memory := do
  let (bytes, memory) ← readBytes memory
  let rest : Rest := { memory, bytes }
  let count ← readSequenceCount
  if count = 0 then
    require (← isAtEnd) .zstdCorrupt
    let rest ← takeBytes rest bytes.size
    return rest.memory
  let kinds ← byte
  require (kinds % 4 = 0) .zstdCorrupt
  let lengths ← readSequenceCode (kinds / 64) 36 9 usualLengthCode memory.lengthCode
  let distances ← readSequenceCode (kinds / 16 % 4) 32 8 usualDistanceCode memory.distanceCode
  let repetitions ←
    readSequenceCode (kinds / 4 % 4) 53 9 usualRepetitionCode memory.repetitionCode
  let memory :=
    { memory with
      lengthCode := some lengths, distanceCode := some distances,
      repetitionCode := some repetitions }
  let here ← place
  match Backward.ofBytes? ((← read).data.extract here (← read).data.size) with
  | none => throw .zstdCorrupt
  | some b =>
    let (length, b) := lengths.start b
    let (distance, b) := distances.start b
    let (repetition, b) := repetitions.start b
    let rest ← readSequences start lengths distances repetitions count
      { length, distance, repetition } b { rest with memory }
    let rest ← takeBytes rest (bytes.size - rest.taken)
    return rest.memory

/-- Reads blocks up to the last one. The first argument bounds their number. -/
def readBlocks (start room : Nat) : Nat → Memory → Reader Unit
  | 0, _ => return
  | count + 1, memory => do
    let header ← Reader.littleEndian 3
    let size := header / 8
    require (size ≤ room) .zstdCorrupt
    let memory ←
      match header / 2 % 4 with
      | 0 => do
        copyBytes size
        pure memory
      | 1 => do
        let b ← byte
        (List.range size).forM fun _ => write (UInt8.ofNat b)
        pure memory
      | 2 => do
        let after := (← place) + size
        require (after ≤ (← read).data.size) .zstdEnds
        let memory ← limitedTo size (endingIn .zstdCorrupt (readPacked start memory))
        modify fun progress => { progress with position := 8 * after }
        pure memory
      | _ => throw .zstdCorrupt
    if header % 2 = 0 then readBlocks start room count memory

/-! ## Frames -/

/-- What the header of a frame says. -/
structure FrameHeader where
  /-- The size of what the frame stands for. -/
  size : Option Nat
  /-- How far back repetitions can reach. -/
  window : Nat
  /-- Whether a checksum follows. -/
  hasChecksum : Bool

/-- Reads the header of a frame after its mark. -/
def readFrameHeader : Reader FrameHeader := do
  let description ← byte
  let single := description / 32 % 2 = 1
  require (description / 8 % 2 = 0) .zstdUnsupported
  let exponent ← if single then pure 0 else byte
  let dictionary ← Reader.littleEndian ([0, 1, 2, 4].getD (description % 4) 0)
  let size ←
    match description / 64 with
    | 0 => if single then do pure (some (← Reader.littleEndian 1)) else pure none
    | 1 => do pure (some (0x100 + (← Reader.littleEndian 2)))
    | 2 => do pure (some (← Reader.littleEndian 4))
    | _ => do pure (some (← Reader.littleEndian 8))
  require (dictionary = 0) .zstdDictionary
  let window :=
    if single then size.getD 0
    else 1 <<< (10 + exponent / 8) + 1 <<< (10 + exponent / 8) / 8 * (exponent % 8)
  return { size, window, hasChecksum := description / 4 % 2 = 1 }

/-- Reads a frame after its mark. -/
def readFrame (bound : Nat) : Reader Unit := do
  let header ← readFrameHeader
  let start ← written
  readBlocks start (min header.window 0x20000) bound {}
  let content := (← get).output.extract start (← written)
  if let some size := header.size then require (content.size = size) .zstdCorrupt
  if header.hasChecksum then
    require ((← Reader.littleEndian 4) = (hash64 content).toNat % 1 <<< 32) .zstdChecksum

/-- Reads frames. Some of them are passed over. The first argument bounds their number. -/
def readFrames (bound : Nat) : Nat → Reader Unit
  | 0 => return
  | count + 1 => do
    let mark ← Reader.littleEndian 4
    if mark = 0xfd2fb528 then readFrame bound
    else if mark / 16 = 0x184d2a5 then
      let size ← Reader.littleEndian 4
      require ((← place) + size ≤ (← read).data.size) .zstdEnds
      advance (8 * size)
    else throw .zstdHeader
    if !(← isAtEnd) then readFrames bound count

/-- What Zstandard `data` stand for. Each frame and each block takes at least one byte. -/
def unpack (data : ByteArray) : Unpacked :=
  (readFrames (data.size + 1) (data.size + 1)).unpack { data, ends := .zstdEnds }

end MappingTables.Packing.Zstd
