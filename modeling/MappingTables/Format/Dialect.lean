import MappingTables.Format.Nested
import MappingTables.Format.Plain

/-!
# Dialects

Which dialect a file is in is decided by its first line alone.

* `Dialect.detect`: the dialect for a first line.
* `Format.read`: the table in a file of either dialect.
* `Format.readNamespaces`: the namespaces of a file, from its first line.
-/

namespace MappingTables.Format

open Text

/-- The dialects of mappings files. -/
inductive Dialect where
  | plain
  | nested
deriving DecidableEq, Repr

namespace Dialect

/-- The `Dialect` by the fields of the first line, if it is the header of one. -/
def ofFields? : List String → Option Dialect
  | "v1" :: _ => some plain
  | "tiny" :: "2" :: "0" :: _ => some nested
  | _ => none

/-- How many fields of the header of a `Dialect` stand before the labels of the namespaces. -/
def headerSize : Dialect → Nat
  | plain => 1
  | nested => 3

/-- The dialect of a file by its first `line`, with or without the line end. -/
def detect (line : String) : Except Failure Dialect :=
  match ofFields? (fields (dropLineEnd line)) with
  | some dialect => .ok dialect
  | none => fail (.unsupportedFormat (dropLineEnd line))

/-- The table in what is read of a file of a `Dialect`, by the `readInput` of this. -/
def readInput : Dialect → Input → Except Failure Table
  | plain => Plain.readInput
  | nested => Nested.readInput

/-- The table in a file of the `dialect`. -/
def read (dialect : Dialect) (bytes : ByteArray) : Except Failure Table :=
  dialect.readInput { bytes }

/-- The text of a table in a `Dialect`, by the `write` of this. -/
def write : Dialect → Table → String
  | plain => Plain.write
  | nested => Nested.write

/-- What there is to say when a table is written in a `Dialect`: each `Notice`. -/
def notices : Dialect → Table → List Notice
  | plain => Plain.notices
  | nested => fun _ => []

end Dialect

/-- The first line of `input`, without its line end. -/
def readHeaderLine (input : Input) : Except Failure String :=
  match input.header with
  | .ok line => .ok line
  | .error cause => within .headerLine (fail cause)

/-- The `Dialect` of what is read, by the `readHeaderLine`. -/
def detectInput (input : Input) : Except Failure Dialect := do
  Dialect.detect (← readHeaderLine input)

/-- The dialect of a file. -/
def detect (bytes : ByteArray) : Except Failure Dialect :=
  detectInput { bytes }

/-- The table in what is read of a file of either dialect. -/
def readInput (input : Input) : Except Failure Table := do
  (← detectInput input).readInput input

/-- The table in a file of either dialect that consists of `bytes`. -/
def read (bytes : ByteArray) : Except Failure Table :=
  readInput { bytes }

/-- The namespaces of a file that consists of `bytes`, from its `readHeaderLine`. -/
def readNamespaces (bytes : ByteArray) : Except Failure Namespaces := do
  let header ← readHeaderLine { bytes }
  let dialect ← Dialect.detect header
  within (.headerNamespaces header)
    (Namespaces.ofLabels ((fields header).drop dialect.headerSize))

end MappingTables.Format
