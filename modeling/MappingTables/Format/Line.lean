import MappingTables.Format.Input
import MappingTables.Names
import MappingTables.Text.Escape

/-!
# Lines of a mappings file

Both dialects are written line by line. A line starts with tabs, which give its depth, and consists
of fields that are separated by tabs. The first field says what the line is about.
-/

namespace MappingTables.Format

open Text

/-- A line of a mappings file. -/
structure Line where
  /-- The number of the line; the first one has number 1. -/
  number : Nat
  /-- How many tabs it starts with. -/
  depth : Nat
  /-- The first field. -/
  head : String
  /-- The other fields. -/
  fields : List String
deriving DecidableEq, Repr

/-- A line that was read, or why that failed. -/
abbrev ReadLine := Except Cause Line

/-- The `text` that an escaped text stands for. -/
def unescapeText (text : String) : Except Failure String :=
  match unescape text with
  | .ok s => .ok s
  | .error .unfinished => fail (.unfinishedEscape text)
  | .error (.unknown c) => fail (.unknownEscape c text)

namespace Line

/-- The line with the given `number` and `text`. -/
def ofText (number : Nat) (text : String) : Line :=
  let chars := text.toList
  match Text.fields (String.ofList (chars.dropWhile (· == '\t'))) with
  | [] => { number, depth := (chars.takeWhile (· == '\t')).length, head := "", fields := [] }
  | head :: fields =>
    { number, depth := (chars.takeWhile (· == '\t')).length, head, fields }

/-- The next field, and the `line` without it. -/
def next (line : Line) : Except Failure (String × Line) :=
  match line.fields with
  | [] => fail (.missingField line.number)
  | field :: fields => .ok (field, { line with fields })

/-- The only field of a `line` that is left. -/
def only (line : Line) : Except Failure String :=
  match line.fields with
  | [] => fail (.missingField line.number)
  | [field] => .ok field
  | _ => fail (.surplusFields line.number)

/-- The names in the remaining fields, one for each of `size` namespaces. -/
def names (line : Line) (size : Nat) (escaped : Bool) : Except Failure Names := do
  if line.fields.length ≠ size then
    fail (.fieldCount line.number size line.fields)
  let texts ← within (.namesOnLine line.number)
    (if escaped then line.fields.mapM unescapeText else .ok line.fields)
  return Names.ofTexts texts

end Line

/-- The lines of a file by their `texts`, numbered from 1. -/
def readLines (texts : List (Except Cause String)) : List ReadLine :=
  (texts.zipIdx 1).map fun (text, number) => text.map (Line.ofText number)

/-- A line to be written: tabs for its `depth`, then its `fields`. -/
def row (depth : Nat) (fields : List String) : String :=
  String.ofList (List.replicate depth '\t') ++ "\t".intercalate fields

/-- The `rows` as the text of a file. -/
def unlines (rows : List String) : String :=
  String.join (rows.map (· ++ "\n"))

end MappingTables.Format
