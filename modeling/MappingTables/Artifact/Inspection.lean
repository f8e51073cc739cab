import MappingTables.Format.Dialect

/-!
# Inspecting mappings

Before mappings are read, it is of interest which dialect they are in and which version of the game
they were made for. Both stand in the first lines: the header, and the header properties after it,
which are indented by one tab.

* `Inspection.ofBytes`: what the first lines say.
-/

namespace MappingTables.Artifact

open Text

/-- What the first lines of mappings say. -/
structure Inspection where
  dialect : Format.Dialect
  /-- The version of the game that the mappings were made for. -/
  gameVersion : Option String
deriving DecidableEq, Repr

/-- The header property that names the version of the game. -/
def gameVersionProperty : String :=
  "minecraft_version"

/-- The key and the value of a `line` that is indented by a tab and has another one after the
key. -/
def propertyLine? (line : String) : Option (String × String) :=
  match line.toList with
  | '\t' :: rest =>
    match rest.dropWhile (· ≠ '\t') with
    | _ :: value => some (String.ofList (rest.takeWhile (· ≠ '\t')), String.ofList value)
    | [] => none
  | _ => none

/-- Whether a `line` is indented. -/
def isIndented (line : String) : Bool :=
  line.toList.head? == some '\t'

/-- The properties with values in the indented `lines` that come first. -/
def leadingProperties (lines : List String) : List (String × String) :=
  (lines.takeWhile isIndented).filterMap propertyLine?

/-- What the first lines of mappings say that consist of `bytes`. -/
def Inspection.ofBytes (bytes : ByteArray) : Except Failure Inspection :=
  match decode? bytes.data.toList with
  | none => within .mappingsText (fail .notUtf8)
  | some text => do
    let dialect ← Format.Dialect.detect ((lines text).headD "")
    return {
      dialect
      gameVersion := (leadingProperties (lines text).tail).lookup gameVersionProperty }

end MappingTables.Artifact
