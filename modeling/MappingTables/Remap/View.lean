import MappingTables.Renaming

/-!
# Views for a remapper

A remapper takes the renames from one namespace to another one. A `View` is a table with the two
namespaces chosen, and its entries are those renames.

* `View.ofTable`: the view for two labels.
* `View.entries`: its renames, in the order of the table.
-/

namespace MappingTables.Remap

/-- One rename. Owners and descriptors are given in the namespace that is remapped from. -/
inductive Entry where
  | ofClass (source target : String)
  | ofField (owner name descriptor target : String)
  | ofMethod (owner name descriptor target : String)
  | ofParameter (owner method descriptor : String) (index : UInt64) (target : String)
deriving DecidableEq, Repr

/-- A table with the namespaces that are remapped from and to. -/
structure View where
  table : Table
  /-- The position of the namespace that is remapped from. -/
  source : Nat
  /-- The position of the namespace that is remapped to. -/
  target : Nat
  /-- Whether parameters are renamed too. -/
  locals : Bool := false
deriving DecidableEq

namespace View

/-- The view of the table `t` from one label to another one. -/
def ofTable (t : Table) (source target : String) (locals : Bool) : Except Failure View := do
  let sourcePosition ← t.namespaces.position source
  let targetPosition ← t.namespaces.position target
  return { table := t, source := sourcePosition, target := targetPosition, locals }

/-- The label of the namespace at the position `source`, that is remapped from. -/
def sourceLabel (v : View) : String :=
  v.table.namespaces.label v.source

/-- The label of the namespace at the position `target`, that is remapped to. -/
def targetLabel (v : View) : String :=
  v.table.namespaces.label v.target

/-- The renaming of class names in descriptors, which are given in the table's own source namespace,
to those at the position `source`. -/
def classRenaming (v : View) : Renaming :=
  v.table.classRenaming 0 v.source

/-- What a class goes by as an owner: its name, or its `key` if it has none. -/
def owner (v : View) (key : String) (c : ClassEntry) : String :=
  (c.names.get v.source).getD key

/-- The rename of a class that goes by `owner`, if it has a name to be renamed to. -/
def classEntries (v : View) (owner : String) (names : Names) : List Entry :=
  (names.get v.target).toList.map fun target => .ofClass owner target

/-- The rename of a field of an `owner`, if it has both names. -/
def fieldEntries (v : View) (owner : String) (f : Field) : Except Failure (List Entry) :=
  match f.names.get v.source, f.names.get v.target with
  | some name, some target => do
    return [.ofField owner name (← v.classRenaming.descriptor f.descriptor) target]
  | _, _ => .ok []

/-- The renames of the parameters of a method of an `owner`, if they are asked for. -/
def parameterEntries (v : View) (owner name descriptor : String) (m : Method) : List Entry :=
  if v.locals then
    m.parameters.values.filterMap fun p =>
      (p.names.get v.target).map fun target => .ofParameter owner name descriptor p.index target
  else []

/-- The renames of a method of an `owner`, and of its parameters by `parameterEntries`. There are
none if it has no name to be renamed from; its parameters are renamed also if it keeps its name. -/
def methodEntries (v : View) (owner : String) (m : Method) : Except Failure (List Entry) :=
  match m.names.get v.source with
  | none => .ok []
  | some name => do
    let descriptor ← v.classRenaming.descriptor m.descriptor
    let own := (m.names.get v.target).toList.map fun target =>
      Entry.ofMethod owner name descriptor target
    return own ++ v.parameterEntries owner name descriptor m

/-- The renames of a class and all in it, by `classEntries`, `fieldEntries` and `methodEntries`. -/
def entriesOf (v : View) (key : String) (c : ClassEntry) : Except Failure (List Entry) := do
  let owner := v.owner key c
  let fields ← c.fields.values.mapM (v.fieldEntries owner)
  let methods ← c.methods.values.mapM (v.methodEntries owner)
  return v.classEntries owner c.names ++ fields.flatten ++ methods.flatten

/-- All renames, those of each class by `entriesOf`, in the order of the table. -/
def entries (v : View) : Except Failure (List Entry) := do
  return (← v.table.classes.entries.mapM fun (key, c) => v.entriesOf key c).flatten

end View

end MappingTables.Remap
