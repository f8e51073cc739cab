import MappingTables.Failure
import MappingTables.Json
import MappingTables.OrderedMap

/-!
# Metadata of artifacts

What an artifact has beside its mappings: the metadata of its unpick definitions, which say which
tool they are for, and corrected signatures of record classes.

* `UnpickMetadata.ofBytes`: the metadata in a file, which has to be of version 1.
* `readSignatures`: the signatures in a file.
-/

namespace MappingTables

namespace Json

/-- The text of a `Json` string. -/
def text? : Json → Option String
  | string text => text
  | _ => none

/-- The natural number below a `bound` that a number writes. -/
def natural? (bound : Nat) : Json → Option Nat
  | number natural => natural.filter (· < bound)
  | _ => none

/-- What a value reads as if it may also be null, and else by `read`. -/
def optional? {α : Type} (read : Json → Option α) : Json → Option (Option α)
  | null => some none
  | value => (read value).map some

/-- The `members` of an object, all of whose keys have to be texts. -/
def textMembers? (members : List (Option String × Json)) : Option (List (String × Json)) :=
  members.mapM fun (key, value) => key.map (·, value)

/-- What the member with a `key` reads as, if there is one. There must not be two of them. -/
def member? {α : Type} (read : Json → Option α) (members : List (String × Json)) (key : String) :
    Option (Option α) :=
  match members.filter (·.1 == key) with
  | [] => some none
  | [(_, value)] => optional? read value
  | _ => none

end Json

namespace Artifact

/-- What a metadata file says, as far as it says something. -/
structure UnpickFile where
  /-- The version of the file's own form. -/
  version : Option Nat
  group : Option String
  unpickVersion : Option String
deriving DecidableEq, Repr

/-- What a metadata file says that holds this `Json`. It is an object, of which only the known
members count, or an array of their values. -/
def UnpickFile.ofJson? : Json → Option UnpickFile
  | .object members => do
    let members ← Json.textMembers? members
    return {
      version := ← Json.member? (Json.natural? UInt32.size) members "version"
      group := ← Json.member? Json.text? members "unpickGroup"
      unpickVersion := ← Json.member? Json.text? members "unpickVersion" }
  | .array [version, group, unpickVersion] => do
    return {
      version := ← Json.optional? (Json.natural? UInt32.size) version
      group := ← Json.optional? Json.text? group
      unpickVersion := ← Json.optional? Json.text? unpickVersion }
  | _ => none

/-- Which tool unpick definitions are for. -/
structure UnpickMetadata where
  group : String
  version : String
deriving DecidableEq, Repr

/-- The metadata in a file that consists of `bytes`, by `UnpickFile.ofJson?`. -/
def UnpickMetadata.ofBytes (bytes : ByteArray) : Except Failure UnpickMetadata :=
  match (Json.ofBytes? bytes).bind UnpickFile.ofJson? with
  | none => within .unpickMetadata (fail .malformedJson)
  | some file =>
    if file.version ≠ some 1 then fail (.unsupportedUnpickVersion file.version)
    else
      match file.group, file.unpickVersion with
      | none, _ => fail .noUnpickGroup
      | some _, none => fail .noUnpickVersion
      | some group, some version => .ok { group, version }

/-- Signatures by the names of their classes. -/
abbrev Signatures := OrderedMap String String

/-- The signatures that a `Json` object holds. Of two for one class the later one counts, in the
place of the earlier one. -/
def signatures? : Json → Option Signatures
  | .object members => do
    let members ← Json.textMembers? members
    let signatures ← members.mapM fun (key, value) => value.text?.map (key, ·)
    return signatures.foldl (fun m (key, signature) => m.insert key signature) ∅
  | _ => none

/-- The `signatures?` in a file that consists of `bytes`. -/
def readSignatures (bytes : ByteArray) : Except Failure Signatures :=
  match (Json.ofBytes? bytes).bind signatures? with
  | some signatures => .ok signatures
  | none => fail .malformedJson

end Artifact

end MappingTables
