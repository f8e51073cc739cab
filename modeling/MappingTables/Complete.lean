import MappingTables.Noted
import MappingTables.Notice
import MappingTables.Table

/-!
# Completing a namespace

Where an entry has no name in one namespace, it can take over the name it has in another one. This
is done for all entries of a table, parameters included. Keys stay as they are.
-/

namespace MappingTables

variable (target fallback : Nat)

/-- The parameter with the name at `target` filled in from the one at `fallback`, as by
`Names.fill`. -/
def Parameter.fill (p : Parameter) : Parameter :=
  { p with names := p.names.fill target fallback }

/-- The field with the name at `target` filled in from the one at `fallback`, as by `Names.fill`. -/
def Field.fill (f : Field) : Field :=
  { f with names := f.names.fill target fallback }

/-- The method with its name filled in by `Names.fill`, and those of its parameters by
`Parameter.fill`. -/
def Method.fill (m : Method) : Method :=
  { m with
    names := m.names.fill target fallback
    parameters := m.parameters.map (Parameter.fill target fallback) }

/-- The class with its name filled in by `Names.fill`, and those of all in it likewise. -/
def ClassEntry.fill (c : ClassEntry) : ClassEntry :=
  { c with
    names := c.names.fill target fallback
    fields := c.fields.map (Field.fill target fallback)
    methods := c.methods.map (Method.fill target fallback) }

/-- The names of a class and of all in it, in the order of the table. -/
def ClassEntry.allNames (c : ClassEntry) : List Names :=
  c.names :: c.fields.values.map Field.names ++
    c.methods.values.flatMap fun m => m.names :: m.parameters.values.map Parameter.names

namespace Table

/-- The names of all entries of the table, those of each class by `ClassEntry.allNames`. -/
def allNames (t : Table) : List Names :=
  t.classes.values.flatMap ClassEntry.allNames

/-- The table with the missing names of the namespace `target` filled in from the namespace
`fallback`, and how many names that are. -/
def complete (t : Table) (target fallback : String) : Noted Notice (Table × Nat) := do
  let targetPosition ← t.namespaces.position target
  let fallbackPosition ← t.namespaces.position fallback
  if targetPosition = fallbackPosition then fail (.completedFromItself target)
  let filled := t.allNames.countP (Names.isFillable targetPosition fallbackPosition)
  Noted.note (.completed filled target fallback)
  return ({ t with classes := t.classes.map (ClassEntry.fill targetPosition fallbackPosition) },
    filled)

end Table

end MappingTables
