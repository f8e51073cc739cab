import MappingTables.Packing.Bytes
import MappingTables.Packing.Checksum
import MappingTables.Packing.Lzma

/-!
# Xz data

Xz data consist of streams. A stream has a header, blocks of LZMA2 data, an index of the blocks, and
a footer that repeats the header. Checksums stand after all of these but the blocks, whose own check
is passed over.

* `Xz.unpack`: what xz data stand for.
-/

namespace MappingTables.Packing.Xz

open Reader

/-- The sizes of a block, as the index lists them. -/
structure BlockSizes where
  /-- The size of the block with its check, without what fills it up. -/
  packed : Nat
  /-- The size of what it stands for. -/
  unpacked : Nat

/-- What the header of a stream says. -/
structure Header where
  /-- The two bytes that the footer repeats. -/
  flags : ByteArray
  /-- The size of the check of each block. -/
  checkSize : Nat

/-- Reads bytes that have to be there. -/
def take (count : Nat) : Reader ByteArray := do
  let start ← place
  let _ ← bigEndian count
  since start

/-- Reads a number in groups of seven bits, the lowest ones first, of which there are at most
`groups`. -/
def groupedNumber : (groups : Nat) → Reader Nat
  | 0 => throw .xzNumber
  | groups + 1 => do
    let b ← byte
    if b < 128 then return b
    return b - 128 + 128 * (← groupedNumber groups)

/-- Reads a number. -/
def shortNumber : Reader Nat :=
  groupedNumber 9

/-- Reads what fills up a `size` to a multiple of four, which are zeros. -/
def readPadding (size : Nat) (part : String) : Reader Unit := do
  require ((← bigEndian ((4 - size % 4) % 4)) = 0) (.xzInvalid part)

/-- Reads the checksum of `bytes`. -/
def readChecksum (bytes : ByteArray) (part : String) : Reader Unit := do
  require ((← Reader.littleEndian 4) = (checksum bytes).toNat) (.xzInvalid part)

/-- How a stream starts. -/
def mark : List UInt8 :=
  [0xfd, 0x37, 0x7a, 0x58, 0x5a, 0x00]

/-- The size of the check of a block, by its number. -/
def checkSize? : Nat → Option Nat
  | 0 => some 0
  | 1 => some 4
  | 4 => some 8
  | 10 => some 32
  | _ => none

/-- Reads the header of a stream. One that is too short is taken as if zeros followed. -/
def readHeader : Reader Header := do
  let start ← place
  let bytes := (← read).data.extract start (start + 12)
  advance (8 * bytes.size)
  let header := bytes.data.toList ++ List.replicate (12 - bytes.size) 0
  require (header.take 6 = mark) (.xzInvalid "header")
  let flags := (header.drop 6).take 2
  let kind := (flags.getD 1 0).toNat
  require (flags.head? = some 0 && kind < 16) (.xzInvalid "stream flags")
  match checkSize? kind with
  | none => throw (.xzUnsupported "stream flags")
  | some checkSize =>
    let flags : ByteArray := ⟨flags.toArray⟩
    require (ofLittleEndian (header.drop 8) = (checksum flags).toNat)
      (.xzInvalid "stream flags CRC32")
    return { flags, checkSize }

/-- Reads the description of a filter, which has to be LZMA2. -/
def readFilter : Reader Unit := do
  require ((← shortNumber) = 0x21) (.xzUnsupported "filter ID")
  require ((← shortNumber) = 1) (.xzUnsupported "filter properties size")
  require ((← byte) < 0x40) (.xzUnsupported "filter properties")

/-- Reads the header of a block, of which the first byte says the size. -/
def readBlockHeader : Reader Unit := do
  let start ← place
  let size := 4 * (← byte)
  let flags ← byte
  require (flags / 4 % 16 = 0) (.xzInvalid "block flags")
  if flags / 64 % 2 = 1 then
    let _ ← shortNumber
  if flags / 128 = 1 then
    let _ ← shortNumber
  (List.range (1 + flags % 4)).forM fun _ => readFilter
  require ((← bigEndian (start + size - (← place))) = 0) (.xzInvalid "block header padding")
  readChecksum (← since start) "block header CRC32"

/-- Reads a block. -/
def readBlock (header : Header) : Reader BlockSizes := do
  let start ← place
  let before ← written
  readBlockHeader
  endingIn .lzmaEnds Lzma.readChunks
  let size := (← place) - start
  readPadding size "block padding"
  let _ ← take header.checkSize
  return { packed := size + header.checkSize, unpacked := (← written) - before }

/-- Reads a block. If it is faulty, nothing of it can be used. -/
def readWholeBlock (header : Header) : Reader BlockSizes := do
  let output := (← get).output
  tryCatch (readBlock header) fun fault => do
    modify fun progress => { progress with output }
    throw fault

/-- Reads the index and the footer. -/
def readIndex (header : Header) (blocks : List BlockSizes) : Reader Unit := do
  let start ← place
  let _ ← byte
  require ((← shortNumber) = blocks.length) (.xzInvalid "index record count")
  blocks.forM fun block => do
    require ((← shortNumber) = block.packed) (.xzInvalid "unpadded size")
    require ((← shortNumber) = block.unpacked) (.xzInvalid "uncompressed size")
  readPadding ((← place) - start) "index padding"
  let index ← since start
  let indexChecksum ← Reader.littleEndian 4
  let footerChecksum ← Reader.littleEndian 4
  let footerStart ← place
  let indexSize ← Reader.littleEndian 4
  let flags ← take 2
  let footer ← since footerStart
  let closing ← take 2
  require (indexChecksum = (checksum index).toNat) (.xzInvalid "index CRC32")
  require (footerChecksum = (checksum footer).toNat) (.xzInvalid "footer CRC32")
  require (indexSize = index.size / 4) (.xzInvalid "footer size")
  require (flags.data = header.flags.data) (.xzInvalid "footer flags")
  require (closing.data = "YZ".toUTF8.data) (.xzInvalid "footer magic")

/-- Reads the blocks of a stream, and its end. The first argument bounds their number. -/
def readBlocks (header : Header) : Nat → List BlockSizes → Reader Unit
  | 0, _ => return
  | count + 1, blocks => do
    if (← read).data[← place]? = some 0 then readIndex header blocks
    else
      let block ← readWholeBlock header
      readBlocks header count (blocks ++ [block])

/-- Reads streams. The first argument bounds their number. -/
def readStreams (bound : Nat) : Nat → Reader Unit
  | 0 => return
  | count + 1 => do
    if ← isAtEnd then return
    let start ← place
    readBlocks (← readHeader) bound []
    readPadding ((← place) - start) "footer padding"
    readStreams bound count

/-- What xz `data` stand for. Each stream and each block takes at least one byte. -/
def unpack (data : ByteArray) : Unpacked :=
  (readStreams (data.size + 1) (data.size + 1)).unpack { data, ends := .ended }

end MappingTables.Packing.Xz
