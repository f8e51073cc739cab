import MappingTables.Identity.Sha256

/-!
# Sources of mappings

Mappings are identified by their content and not by where they are: a `Source` is a place together
with the hash of what was found there, and two sources are the same if the hashes are.
-/

namespace MappingTables

/-- Where mappings come from, with the hash of their content. -/
structure Source where
  /-- The path of the file, or of the archive. -/
  path : String
  /-- The member of the archive, if it is one. -/
  member : Option String
  /-- The hash of the content. -/
  hash : List UInt8
deriving DecidableEq, Repr

namespace Source

/-- The source with the content `bytes`. -/
def ofBytes (path : String) (member : Option String) (bytes : ByteArray) : Source :=
  { path, member, hash := Sha256.hash bytes.data.toList }

/-- Whether two sources have the same content, which their `hash` tells. -/
def same (s t : Source) : Bool :=
  s.hash == t.hash

/-- A byte as two hexadecimal digits. -/
def hexByte (b : UInt8) : List Char :=
  [Nat.digitChar (b.toNat / 16), Nat.digitChar (b.toNat % 16)]

/-- The `hash` of a source, each byte as `hexByte` writes it. -/
def hashText (s : Source) : String :=
  String.ofList (s.hash.flatMap hexByte)

end Source

end MappingTables
