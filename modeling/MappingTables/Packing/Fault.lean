/-!
# Faults of packed data

Packed data can end too early, or be such that they stand for nothing. Each format has its own words
for that.

* `Fault.message`: the wording of a fault.
-/

namespace MappingTables.Packing

/-- Why LZMA data stand for nothing. -/
inductive LzmaFault where
  /-- The number that says how symbols depend on others is too large. -/
  | settings (number : Nat)
  /-- The same in the chunks of a stream. -/
  | chunkSettings (number : Nat)
  /-- Symbols depend on too many bits of others. -/
  | contextBits (literal position : Nat)
  /-- Bytes are repeated from farther away than the data allow. -/
  | beyondDictionary (distance size : Nat)
  /-- Bytes are repeated from before the first one. -/
  | beyondOutput (distance size : Nat)
  /-- The end is marked, but the data go on. -/
  | earlyMark
  /-- The end comes at another size than it has to. -/
  | wrongSize (expected found : Nat)
  /-- There is no such chunk. -/
  | chunkKind (number : Nat)
  /-- The data end where something has to follow. -/
  | chunkEnds (expected : String)
  /-- The data end where symbols have to start. -/
  | symbolsEnd
deriving DecidableEq, Repr

/-- The words for data that end where more is needed. -/
def endedWords : String :=
  "failed to fill whole buffer"

/-- The wording of a fault of LZMA data. -/
def LzmaFault.message : LzmaFault → String
  | settings number =>
    "LZMA header invalid properties: " ++ toString number ++ " must be < 225"
  | chunkSettings number =>
    "LZMA2 invalid properties: " ++ toString number ++ " must be < 225"
  | contextBits literal position =>
    "LZMA2 invalid properties: lc + lp (" ++ toString literal ++ " + " ++ toString position ++
      ") must be <= 4"
  | beyondDictionary distance size =>
    "LZ distance " ++ toString distance ++ " is beyond dictionary size " ++ toString size
  | beyondOutput distance size =>
    "LZ distance " ++ toString distance ++ " is beyond output size " ++ toString size
  | earlyMark => "Found end-of-stream marker but more bytes are available"
  | wrongSize expected found =>
    "Expected unpacked size of " ++ toString expected ++ " but decompressed to " ++ toString found
  | chunkKind number =>
    "LZMA2 invalid status " ++ toString number ++ ", must be 0, 1, 2 or >= 128"
  | chunkEnds expected => "LZMA2 expected " ++ expected ++ ": " ++ endedWords
  | symbolsEnd => "LZMA input too short: " ++ endedWords

/-- Why packed data cannot be unpacked to their end. -/
inductive Fault where
  /-- What they stand for is not what it has to be. -/
  | checksum
  /-- They end where more is needed. -/
  | ended
  | deflateEnds
  | deflateCorrupt
  | wideDeflateEnds
  | wideDeflateCorrupt
  | bzip2Ends
  | bzip2Header
  | bzip2Corrupt
  /-- They end within the symbols of LZMA data. -/
  | lzmaEnds
  | lzma (fault : LzmaFault)
  /-- A part of xz data is not what it has to be. -/
  | xzInvalid (part : String)
  /-- A part of xz data asks for what is not supported. -/
  | xzUnsupported (part : String)
  /-- A number of xz data has too many bytes. -/
  | xzNumber
  | zstdEnds
  | zstdHeader
  | zstdCorrupt
  | zstdChecksum
  | zstdUnsupported
  | zstdDictionary
deriving DecidableEq, Repr

/-- The wording of a fault. -/
def Fault.message : Fault → String
  | checksum => "Invalid checksum"
  | ended => endedWords
  | deflateEnds => "incomplete deflate stream"
  | deflateCorrupt => "corrupt deflate stream"
  | wideDeflateEnds => "invalid deflate64"
  | wideDeflateCorrupt => "invalid deflate64"
  | bzip2Ends => "decompression not finished but EOF reached"
  | bzip2Header => "bzip2: bz2 header missing"
  | bzip2Corrupt => "bzip2: invalid data"
  | lzmaEnds => "IoError(Error \x7b kind: UnexpectedEof, message: \"" ++ endedWords ++ "\" \x7d)"
  | lzma fault => "LzmaError(\"" ++ fault.message ++ "\")"
  | xzInvalid part => "Invalid XZ " ++ part
  | xzUnsupported part => "Unsupported XZ " ++ part
  | xzNumber => "Invalid multi-byte encoding"
  | zstdEnds => "incomplete frame"
  | zstdHeader => "Unknown frame descriptor"
  | zstdCorrupt => "Data corruption detected"
  | zstdChecksum => "Restored data doesn't match checksum"
  | zstdUnsupported => "Unsupported frame parameter"
  | zstdDictionary => "Dictionary mismatch"

/-- What packed data stand for. -/
structure Unpacked where
  /-- The bytes up to the fault, or all of them. -/
  bytes : ByteArray
  /-- The fault, if there is one. -/
  fault : Option Fault := none

end MappingTables.Packing
