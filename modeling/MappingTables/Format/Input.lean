import MappingTables.Failure
import MappingTables.Text.Lines

/-!
# What is read

What is read from a file or from a member of an archive can end with a fault instead of the end. All
that comes before the fault can be used.

* `Input.texts`: the texts of the lines.
* `Input.header`: the text of the first line.
-/

namespace MappingTables

open Text

/-- What can be read. -/
structure Input where
  bytes : ByteArray
  /-- Why no more can be read, if that is not the end. -/
  fault : Option Cause := none

namespace Input

/-- The text of a line, if it is one. -/
def lineText : Option String → Except Cause String
  | some text => .ok text
  | none => .error .undecodable

/-- The `bytes` up to the end of their last complete line. -/
def completeLines (bytes : ByteArray) : ByteArray :=
  ⟨(bytes.data.toList.reverse.dropWhile (· != 0x0a)).reverse.toArray⟩

/-- The texts of the lines of `input`, each as `lineText`. A fault takes the place of a line that it
breaks off, or comes after the last one. -/
def texts (input : Input) : List (Except Cause String) :=
  match input.fault with
  | none => (fileLines input.bytes).map lineText
  | some cause => (fileLines (completeLines input.bytes)).map lineText ++ [.error cause]

/-- The text of the first line of `input`, without its line end. -/
def header (input : Input) : Except Cause String :=
  match input.fault with
  | none => lineText (headerLine? input.bytes)
  | some cause =>
    if 0x0a ∈ input.bytes.data then lineText (headerLine? input.bytes) else .error cause

/-- All bytes of `input`, if all can be read. -/
def all (input : Input) : Except Failure ByteArray :=
  match input.fault with
  | none => .ok input.bytes
  | some cause => fail cause

/-- Without a fault, `texts` are the lines of the bytes. -/
@[simp]
theorem texts_of_bytes (bytes : ByteArray) :
    texts { bytes } = (fileLines bytes).map lineText :=
  rfl

end Input

end MappingTables
