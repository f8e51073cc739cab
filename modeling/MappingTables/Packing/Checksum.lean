/-!
# Checksums

The checksum of bytes is the remainder of a division of polynomials over bits, with the lowest bit
of each byte first.

* `checksum`: the checksum of bytes.
-/

namespace MappingTables.Packing

/-- The `remainder` after one more bit. -/
def remainderBit (remainder : UInt32) : UInt32 :=
  if remainder &&& 1 = 1 then (remainder >>> 1) ^^^ 0xedb88320 else remainder >>> 1

/-- The `remainder` after one more `byte`. -/
def remainderByte (remainder : UInt32) (byte : UInt8) : UInt32 :=
  (List.range 8).foldl (fun r _ => remainderBit r) (remainder ^^^ byte.toUInt32)

/-- The checksum of `bytes`. -/
def checksum (bytes : ByteArray) : UInt32 :=
  bytes.data.foldl remainderByte 0xffffffff ^^^ 0xffffffff

end MappingTables.Packing
