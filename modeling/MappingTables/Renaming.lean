import MappingTables.Descriptor
import MappingTables.Table

/-!
# Renaming classes

A `Renaming` knows the names of classes in one namespace by their names in another one. Classes that
it does not know keep their name, also inside of descriptors.
-/

namespace MappingTables

/-- New class names by old ones. -/
abbrev Renaming := OrderedMap String String

namespace Renaming

/-- The new `name` of a class, or its old one if it is not known. -/
def className (r : Renaming) (name : String) : String :=
  (r.get? name).getD name

/-- A `descriptor` with the new class names. -/
def descriptor (r : Renaming) (descriptor : String) : Except Failure String :=
  Descriptor.map r.className descriptor

end Renaming

namespace Table

/-- What a class goes by in the namespace at a `position`. For the source namespace that is its
`key`, so that classes without a source name are found too. -/
def nameOrKey (position : Nat) (key : String) (c : ClassEntry) : Option String :=
  if position = 0 then some key else c.names.get position

/-- The renaming from one namespace to another one, given by their positions `source` and `target`.
A class that has no name in one of them is left out; of two classes that go by the same name, the
later one counts. -/
def classRenaming (t : Table) (source target : Nat) : Renaming :=
  t.classes.entries.foldl (fun r (key, c) =>
    match nameOrKey source key c, c.names.get target with
    | some old, some new => r.insert old new
    | _, _ => r) ∅

end Table

end MappingTables
