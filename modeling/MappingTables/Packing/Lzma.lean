import MappingTables.Packing.Reader

/-!
# LZMA data

In LZMA data every bit is written by how likely it is in its context, so that a likely one takes up
less room. The contexts learn from the bits that come up in them. The symbols stand for bytes and
for repetitions of bytes that came before.

LZMA2 data are chunks of such symbols or of plain bytes.

* `Lzma.unpack`: what LZMA data of a given size stand for.
* `Lzma.readChunks`: reads LZMA2 data.
-/

namespace MappingTables.Packing.Lzma

open Reader

/-- On how much of what was written a symbol depends. -/
structure Settings where
  /-- How many of the highest bits of the last byte a byte depends on. -/
  literalBits : Nat := 0
  /-- How many of the lowest bits of its position a byte depends on. -/
  literalPositionBits : Nat := 0
  /-- How many of the lowest bits of its position any other symbol depends on. -/
  positionBits : Nat := 0

/-- The settings that a `number` stands for. -/
def Settings.ofNat (number : Nat) : Settings where
  literalBits := number % 9
  literalPositionBits := number / 9 % 5
  positionBits := number / 45

/-! ## Contexts

All contexts are kept in one array, each kind of them from its own place on. -/

/-- How likely a zero is in a context that has not learned anything, in parts of 2048. -/
def even : Nat := 1024

/-- Whether the next symbol is a repetition. -/
def isRepetition : Nat := 0

/-- Whether its distance is one of the last four. -/
def isRecent : Nat := isRepetition + 12 * 16

/-- Whether it is not the last one. -/
def isOlder : Nat := isRecent + 12

/-- Whether the last distance is used for more than one byte. -/
def isLong : Nat := isOlder + 12

/-- Whether the distance is older than the last two. -/
def isThird : Nat := isLong + 12 * 16

/-- Whether the distance is the oldest one. -/
def isFourth : Nat := isThird + 12

/-- In which range a distance is. -/
def distanceRange : Nat := isFourth + 12

/-- The lower bits of distances that are not large. -/
def distanceBits : Nat := distanceRange + 4 * 64

/-- The lowest bits of large distances. -/
def distanceEnd : Nat := distanceBits + 128

/-- The lengths of repetitions with a new distance. -/
def newLength : Nat := distanceEnd + 16

/-- How many contexts there are for lengths: those that choose among short, medium and long, those
for short and medium ones by position, and those for long ones. -/
def lengthContexts : Nat := 2 + 16 * 8 + 16 * 8 + 256

/-- The lengths of repetitions with a recent distance. -/
def recentLength : Nat := newLength + lengthContexts

/-- The bytes. -/
def literal : Nat := recentLength + lengthContexts

/-- How many contexts there are. -/
def Settings.contexts (s : Settings) : Nat :=
  literal + 0x300 * 1 <<< (s.literalBits + s.literalPositionBits)

/-! ## Bits -/

/-- What is known while symbols are read. -/
structure Decoder where
  settings : Settings := {}
  /-- How likely a zero is in each context. -/
  chances : Array Nat := Array.replicate ({ : Settings}).contexts even
  /-- How large the range is in which `code` stands. -/
  range : Nat := 0
  code : Nat := 0
  /-- Which kinds of symbols the last ones were. -/
  state : Nat := 0
  /-- The last four distances, less one. -/
  recent : List Nat := [0, 0, 0, 0]
  /-- After how many bytes of output repetitions can start. -/
  start : Nat := 0
  /-- The greatest distance. -/
  dictionary : Option Nat := none

/-- Reads symbols. -/
abbrev Decoding (α : Type) := StateT Decoder Reader α

/-- The decoder with other `settings` and with contexts that have not learned anything. -/
def Decoder.restarted (d : Decoder) (settings : Settings) : Decoder :=
  { d with
    settings
    chances := Array.replicate settings.contexts even
    state := 0
    recent := [0, 0, 0, 0] }

/-- Reads the start of a range. The first byte means nothing. -/
def startRange : Decoding Unit := do
  let _ ← (byte : Reader Nat)
  let code ← (bigEndian 4 : Reader Nat)
  modify fun d => { d with range := 0xffffffff, code }

/-- Makes a small range large again. -/
def refill : Decoding Unit := do
  if (← get).range < 0x1000000 then
    let next ← (byte : Reader Nat)
    modify fun d => { d with range := 0x100 * d.range, code := 0x100 * d.code + next }

/-- The next bit in a `context`, which learns from it. -/
def Decoder.nextBit (d : Decoder) (context : Nat) : Nat × Decoder :=
  let chance := d.chances.getD context even
  let bound := d.range / 2048 * chance
  if d.code < bound then
    (0, { d with
      range := bound
      chances := d.chances.setIfInBounds context (chance + (2048 - chance) / 32) })
  else
    (1, { d with
      range := d.range - bound
      code := d.code - bound
      chances := d.chances.setIfInBounds context (chance - chance / 32) })

/-- Reads a bit in a `context`. -/
def bitIn (context : Nat) : Decoding Nat := do
  let b ← modifyGet (·.nextBit context)
  refill
  return b

/-- Reads a bit that can as well be zero as one. -/
def directBit : Decoding Nat := do
  let b ← modifyGet fun d =>
    let half := d.range / 2
    if d.code < half then (0, { d with range := half })
    else (1, { d with range := half, code := d.code - half })
  refill
  return b

/-- Reads bits, the highest one first, each in a context for those before it. -/
def treeFrom (contexts : Nat) : (count node : Nat) → Decoding Nat
  | 0, node => return node
  | count + 1, node => do treeFrom contexts count (2 * node + (← bitIn (contexts + node)))

/-- Reads a number, the highest bit first. -/
def tree (contexts count : Nat) : Decoding Nat := do
  return (← treeFrom contexts count 1) - 1 <<< count

/-- Reads bits, the lowest one first, each in a context for those before it. -/
def lowTreeFrom (contexts : Nat) : (count node weight : Nat) → Decoding Nat
  | 0, _, _ => return 0
  | count + 1, node, weight => do
    let b ← bitIn (contexts + node)
    return weight * b + (← lowTreeFrom contexts count (2 * node + b) (2 * weight))

/-- Reads a number, the lowest bit first. -/
def lowTree (contexts count : Nat) : Decoding Nat :=
  lowTreeFrom contexts count 1 1

/-- Reads a number of direct bits, the highest one first. -/
def directFrom : (high count : Nat) → Decoding Nat
  | high, 0 => return high
  | high, count + 1 => do directFrom (2 * high + (← directBit)) count

/-! ## Symbols -/

/-- How many bytes were written since repetitions can start. -/
def available : Decoding Nat := do
  return (← (written : Reader Nat)) - (← get).start

/-- The byte at a `distance` from the end of the output, and 0 before the start. -/
def earlier (distance : Nat) : Decoding Nat := do
  if (← available) < distance then return 0
  let output := (← getThe Progress).output
  return ((output[output.size - distance]?).getD 0).toNat

/-- Reads the bits of a byte as long as they agree with those of the byte at the last distance, each
in a context for that. -/
def matchedFrom (contexts : Nat) : (count same node : Nat) → Decoding Nat
  | 0, _, node => return node
  | count + 1, same, node => do
    let expected := same / 128 % 2
    let b ← bitIn (contexts + 0x100 * (1 + expected) + node)
    if b = expected then matchedFrom contexts count (2 * same) (2 * node + b)
    else treeFrom contexts count (2 * node + b)

/-- Reads a byte. -/
def readLiteral : Decoding Unit := do
  let d ← get
  let place := (← available) % 1 <<< d.settings.literalPositionBits
  let high := (← earlier 1) / 1 <<< (8 - d.settings.literalBits)
  let contexts := literal + 0x300 * (place * 1 <<< d.settings.literalBits + high)
  let node ←
    if d.state < 7 then treeFrom contexts 8 1
    else do matchedFrom contexts 8 (← earlier (d.recent.headD 0 + 1)) 1
  write (UInt8.ofNat node)
  modify fun d =>
    { d with state := if d.state < 4 then 0 else if d.state < 10 then d.state - 3 else d.state - 6 }

/-- Writes bytes again. -/
def repeatBytes (distance length : Nat) : Decoding Unit := do
  let found ← available
  match (← get).dictionary with
  | some size => if size < distance then throw (Fault.lzma (.beyondDictionary distance size))
  | none => pure ()
  if found < distance then throw (Fault.lzma (.beyondOutput distance found))
  repeatEarlier distance length

/-- Reads a length, less two. -/
def readLength (contexts position : Nat) : Decoding Nat := do
  if (← bitIn contexts) = 0 then tree (contexts + 2 + 8 * position) 3
  else if (← bitIn (contexts + 1)) = 0 then
    return 8 + (← tree (contexts + 2 + 16 * 8 + 8 * position) 3)
  else return 16 + (← tree (contexts + 2 + 2 * 16 * 8) 8)

/-- Reads a distance, less one, for a `length` less two. -/
def readDistance (length : Nat) : Decoding Nat := do
  let range ← tree (distanceRange + 64 * min length 3) 6
  if range < 4 then return range
  let bits := range / 2 - 1
  let base := (2 + range % 2) * 1 <<< bits
  if range < 14 then return base + (← lowTree (distanceBits + base - range) bits)
  let middle ← directFrom 0 (bits - 4)
  return base + 16 * middle + (← lowTree distanceEnd 4)

/-- Reads which of the recent distances is used. -/
def readRecent (state : Nat) : Decoding Nat := do
  if (← bitIn (isOlder + state)) = 0 then return 0
  if (← bitIn (isThird + state)) = 0 then return 1
  return 2 + (← bitIn (isFourth + state))

/-- Reads a repetition with a recent distance. -/
def readRecentRepetition (state position : Nat) : Decoding Unit := do
  let use ← readRecent state
  let recent := (← get).recent
  let distance := recent.getD use 0
  let isSingle ←
    if use = 0 then do pure ((← bitIn (isLong + 16 * state + position)) == 0) else pure false
  if isSingle then
    modify fun d => { d with state := if state < 7 then 9 else 11 }
    repeatBytes (distance + 1) 1
  else
    let length ← readLength recentLength position
    modify fun d =>
      { d with state := if state < 7 then 8 else 11, recent := distance :: recent.eraseIdx use }
    repeatBytes (distance + 1) (length + 2)

/-- Reads a repetition with a new distance, and whether it was not the mark of the end, which is the
greatest distance. -/
def readNewRepetition (state position : Nat) : Decoding Bool := do
  let length ← readLength newLength position
  let distance ← readDistance length
  modify fun d =>
    { d with state := if state < 7 then 7 else 10, recent := distance :: d.recent.take 3 }
  if distance = 0xffffffff then return false
  repeatBytes (distance + 1) (length + 2)
  return true

/-- Reads a symbol, and whether it was not the mark of the end. -/
def readSymbol : Decoding Bool := do
  let d ← get
  let position := (← available) % 1 <<< d.settings.positionBits
  if (← bitIn (isRepetition + 16 * d.state + position)) = 0 then
    readLiteral
    return true
  else if (← bitIn (isRecent + d.state)) = 1 then
    readRecentRepetition d.state position
    return true
  else readNewRepetition d.state position

/-- Reads symbols up to the given `size` of the output. The first argument bounds their number. -/
def readSymbols (size : Nat) : Nat → Decoding Unit
  | 0 => return
  | steps + 1 => do
    if size ≤ (← available) then return
    if ← readSymbol then readSymbols size steps
    else if (← get).code ≠ 0 ∨ ¬(← (isAtEnd : Reader Bool)) then throw (Fault.lzma .earlyMark)

/-- Reads symbols that stand for exactly the given number of bytes more. Each stands for at least
one. -/
def readExactly (count : Nat) : Decoding Unit := do
  let size := (← available) + count
  readSymbols size count
  if (← available) ≠ size then throw (Fault.lzma (.wrongSize size (← available)))

/-! ## Whole data -/

/-- Reads LZMA data of which the `size` is known. Before them stand a version, which means nothing,
and the size of the settings. -/
def readAll (size : Nat) : Reader Unit := do
  endingIn .ended do
    let _ ← Reader.littleEndian 2
    let _ ← Reader.littleEndian 2
  let number ← byte
  require (number < 225) (.lzma (.settings number))
  let dictionary := max 0x1000 (← Reader.littleEndian 4)
  let start := ({ dictionary := some dictionary } : Decoder).restarted (.ofNat number)
  let ((), _) ← (do startRange; readExactly size : Decoding Unit).run start

/-- What LZMA `data` stand for. Of faulty data nothing can be used. -/
def unpack (size : Nat) (data : ByteArray) : Unpacked :=
  let unpacked := (readAll size).unpack { data, ends := .lzmaEnds }
  if unpacked.fault.isSome then { unpacked with bytes := ByteArray.empty } else unpacked

/-- Lets repetitions start at the end of the output. -/
def forget : Decoding Unit := do
  let start ← (written : Reader Nat)
  modify fun d => { d with start }

/-- Reads a part of a chunk, which has to be there. -/
def expected {α : Type} (words : String) (reader : Reader α) : Decoding α :=
  (endingIn (.lzma (.chunkEnds words)) reader : Reader α)

/-- Reads a chunk of plain bytes. -/
def readPlain : Decoding Unit := do
  let size := 1 + (← expected "unpacked size" (bigEndian 2))
  expected (toString size ++ " uncompressed bytes") (copyBytes size)

/-- Reads new settings. -/
def readSettings : Decoding Settings := do
  let number ← expected "new properties" byte
  let settings := Settings.ofNat number
  if 225 ≤ number then throw (Fault.lzma (.chunkSettings number))
  if 4 < settings.literalBits + settings.literalPositionBits then
    throw (Fault.lzma (.contextBits settings.literalBits settings.literalPositionBits))
  return settings

/-- Reads a chunk of symbols. The number `kind` says what it resets, and the highest bits of its
size. -/
def readPacked (kind : Nat) : Decoding Unit := do
  let size := 0x10000 * (kind % 32) + (← expected "unpacked size" (bigEndian 2)) + 1
  let packedSize := (← expected "packed size" (bigEndian 2)) + 1
  let resets := kind / 32 % 4
  if resets = 3 then forget
  if 2 ≤ resets then
    let settings ← readSettings
    modify (·.restarted settings)
  else if resets = 1 then modify fun d => d.restarted d.settings
  fun d => limitedTo packedSize do
    let ((), d) ← endingIn (.lzma .symbolsEnd) (startRange.run d)
    endingIn .lzmaEnds ((readExactly size).run d)

/-- Reads chunks up to the last one. The first argument bounds their number. -/
def readChunksFrom : Nat → Decoding Unit
  | 0 => return
  | count + 1 => do
    let kind ← expected "new status" byte
    if kind = 0 then return
    if 128 ≤ kind then readPacked kind
    else if kind = 1 then
      forget
      readPlain
    else if kind = 2 then readPlain
    else throw (Fault.lzma (.chunkKind kind))
    readChunksFrom count

/-- Reads LZMA2 data. Each chunk takes at least one byte. -/
def readChunks : Reader Unit := do
  let count := (← read).data.size + 1
  let start : Decoder := { start := ← written }
  let ((), _) ← (readChunksFrom count).run start

end MappingTables.Packing.Lzma
