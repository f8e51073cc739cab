import MappingTables.Identity.Source

/-!
# Keys of tables

A table is told apart from others by the content that it was read from, the steps by which it was
derived from that, and the version of the game that it is for.
-/

namespace MappingTables

/-- What a table is derived from, and how. -/
structure TableKey where
  /-- The hash of the source in hexadecimal digits. -/
  source : String
  /-- The steps of the derivation. -/
  steps : List String := []
  /-- The version of the game that the table is for. -/
  gameVersion : Option String := none
deriving DecidableEq, Repr

namespace TableKey

/-- The key of a table as it is in its source, which it names by `hashText`. -/
def ofSource (s : Source) : TableKey :=
  { source := s.hashText }

/-- The `key` after one more `step`. -/
def step (key : TableKey) (step : String) : TableKey :=
  { key with steps := key.steps ++ [step] }

/-- The `key` for a `version` of the game. -/
def forGame (key : TableKey) (version : String) : TableKey :=
  { key with gameVersion := some version }

/-- The text under which a `Service` keeps the table. -/
def text (key : TableKey) : String :=
  key.source ++ "|" ++ ";".intercalate key.steps ++ "|" ++ key.gameVersion.getD ""

end TableKey

end MappingTables
