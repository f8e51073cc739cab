import MappingTables.Text.Quoted

/-!
# Notices

What an operation has to say apart from its outcome. Notices are values that operations return, also
the ones that fail; showing them is up to the caller.
-/

namespace MappingTables

open Text

/-- Two tables that are merged give different values for the same thing. -/
structure Conflict where
  /-- Where the two tables differ. -/
  location : String
  /-- What they differ about: the label of a namespace, or a comment. -/
  subject : String
  /-- The value of the left table, which is kept. -/
  kept : String
  /-- The value of the right table. -/
  discarded : String
deriving DecidableEq, Repr

/-- The wording of a `Conflict`. -/
def Conflict.message (c : Conflict) : String :=
  "conflicting " ++ c.subject ++ " for " ++ c.location ++ ": kept " ++ quote c.kept ++
    ", discarded " ++ quote c.discarded

/-- How much a notice matters. -/
inductive Level where
  | debug
  | info
  | warn
  | error
deriving DecidableEq, Repr

/-- The word for a `Level`. -/
def Level.word : Level → String
  | debug => "debug"
  | info => "info"
  | warn => "warn"
  | error => "error"

/-- Something an operation has to say. -/
inductive Notice where
  /-- Namespaces get lost, as they are not asked for. -/
  | dropped (requested lost : List String)
  /-- Entries have no name in the new source namespace. -/
  | unnamed (count : Nat) (label : String)
  /-- Names were filled in from another namespace. -/
  | completed (count : Nat) (target fallback : String)
  /-- Parameters cannot be written in the plain dialect. -/
  | droppedParameters (count : Nat)
  /-- Two tables disagree. -/
  | conflict (c : Conflict)
  /-- Two tables were merged on the command line. -/
  | merged (conflicts : Nat)
  /-- An artifact was made for another version of the game. -/
  | otherGameVersion (name version configured found : String)
  /-- The mappings are taken out of their jar. -/
  | extracting (file : String)
  /-- A working directory could not be removed. -/
  | cleanFailed (path reason : String)
  /-- A working directory could not be made. -/
  | createFailed (path reason : String)
  /-- Names are about to be proposed for fields. -/
  | populating
  /-- A Java program reported that it failed. -/
  | javaFailed
deriving DecidableEq, Repr

namespace Notice

/-- How much a `Notice` matters. -/
def level : Notice → Level
  | dropped .. | unnamed .. | completed .. | droppedParameters .. => .debug
  | conflict .. | otherGameVersion .. => .warn
  | merged .. | extracting .. | populating => .info
  | cleanFailed .. | createFailed .. | javaFailed => .error

/-- The wording of a `Notice`. -/
def message : Notice → String
  | .dropped requested lost =>
    "reordering to " ++ quoteList requested ++ " drops the namespaces " ++ quoteList lost
  | unnamed count label =>
    toString count ++ " entries have no name in " ++ quote label ++
      ", they stay keyed by their old key"
  | completed count target fallback =>
    "completed " ++ toString count ++ " names of " ++ quote target ++ " from " ++ quote fallback
  | droppedParameters count =>
    "tiny v1 can't hold parameters, dropped " ++ toString count ++ " of them"
  | conflict c => c.message
  | merged conflicts => "merged with " ++ toString conflicts ++ " conflicts"
  | otherGameVersion name version configured found =>
    "the mappings " ++ name ++ ":" ++ version ++ " were not built for game version " ++
      configured ++ ", but for " ++ found ++ ", proceed with caution"
  | extracting file => ":extracting " ++ quote file
  | cleanFailed path reason =>
    "failed to clean working directory " ++ quote path ++ ": " ++ reason
  | createFailed path reason =>
    "failed to create working directory " ++ quote path ++ ": " ++ reason
  | populating => ":populating field names"
  | javaFailed => "java exited with error state"

end Notice

end MappingTables
