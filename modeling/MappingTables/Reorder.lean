import MappingTables.Noted
import MappingTables.Notice
import MappingTables.Renaming

/-!
# Reordering namespaces

A table can be given another list of namespaces, a selection of its own in any order. If the first
one changes, the table is re-rooted: descriptors are given in the new source namespace, and entries
are keyed by their name in it, or by their old key if they have none there.

* `Table.reorder`: the namespaces with the given labels, in the given order.
* `Table.switchSource`: two namespaces change places, so that the given one comes first.
-/

namespace MappingTables

/-- The name of an entry in the new source namespace, or its `old` key. -/
def newKey (names : Names) (old : String) : String :=
  names.source.getD old

/-- The parameter with the slots at the given `positions`. -/
def Parameter.pick (positions : List Nat) (p : Parameter) : Parameter :=
  { p with names := p.names.pick positions }

/-- The `parameters` with the slots at the given `positions`, keyed by their own indices. -/
def reorderParameters (positions : List Nat) (parameters : List Parameter) :
    Except Failure (OrderedMap UInt64 Parameter) :=
  parameters.foldlM (fun m p => insertNew p.index (p.pick positions) m) ∅

/-- The field with the slots at the given `positions` and its descriptor renamed. -/
def Field.reorder (r : Renaming) (positions : List Nat) (f : Field) : Except Failure Field := do
  return { f with
    descriptor := ← r.descriptor f.descriptor
    names := f.names.pick positions }

/-- The method with the slots at the given `positions` and its descriptor renamed. -/
def Method.reorder (r : Renaming) (positions : List Nat) (m : Method) : Except Failure Method := do
  return {
    descriptor := ← r.descriptor m.descriptor
    names := m.names.pick positions
    comment := m.comment
    parameters := ← reorderParameters positions m.parameters.values }

namespace ClassEntry

/-- Adds a field of a class, as `Field.reorder` gives it, to the class that takes its place. -/
def insertReordered (r : Renaming) (positions : List Nat) (c : ClassEntry)
    (entry : MemberKey × Field) : Except Failure ClassEntry := do
  let f ← entry.2.reorder r positions
  let key : MemberKey := { name := newKey f.names entry.1.name, descriptor := f.descriptor }
  within (.reorderEntry .field) (c.insertField key f)

/-- Adds a method of a class, as `Method.reorder` gives it, to the class that takes its place. -/
def insertReorderedMethod (r : Renaming) (positions : List Nat) (c : ClassEntry)
    (entry : MemberKey × Method) : Except Failure ClassEntry := do
  let m ← entry.2.reorder r positions
  let key : MemberKey := { name := newKey m.names entry.1.name, descriptor := m.descriptor }
  within (.reorderEntry .method) (c.insertMethod key m)

/-- The class with the slots at the given `positions`, and its members likewise. -/
def reorder (r : Renaming) (positions : List Nat) (c : ClassEntry) :
    Except Failure ClassEntry := do
  let bare : ClassEntry := { names := c.names.pick positions, comment := c.comment }
  let withFields ← c.fields.entries.foldlM (insertReordered r positions) bare
  c.methods.entries.foldlM (insertReorderedMethod r positions) withFields

/-- How many of the class itself, its fields and its methods have no name at a `position`. -/
def unnamedAt (position : Nat) (c : ClassEntry) : Nat :=
  (if (c.names.get position).isNone then 1 else 0) +
    c.fields.values.countP (fun f => (f.names.get position).isNone) +
    c.methods.values.countP fun m => (m.names.get position).isNone

end ClassEntry

namespace Table

/-- Adds a class of a table to the table that takes its place. -/
def insertReordered (r : Renaming) (positions : List Nat) (t : Table)
    (entry : String × ClassEntry) : Except Failure Table := do
  let c ← entry.2.reorder r positions
  within (.reorderEntry .classEntry) (t.insertClass (newKey c.names entry.1) c)

/-- The table whose namespaces are those at the given positions, the first of which is `source`. -/
def reorderAt (t : Table) (source : Nat) (positions : List Nat) : Except Failure Table := do
  let bare : Table := { namespaces := ← t.namespaces.pick positions, properties := t.properties }
  t.classes.entries.foldlM (insertReordered (t.classRenaming 0 source) positions) bare

/-- How many classes, fields and methods have no name at a `position`. -/
def unnamedAt (t : Table) (position : Nat) : Nat :=
  total (ClassEntry.unnamedAt position) t.classes.values

/-- Reorders to the namespaces at the given `positions`, and notes how many entries have no name in
the new `source` namespace. -/
def reorderNoted (t : Table) (source : Nat) (positions : List Nat) : Noted Notice Table := do
  let reordered ← t.reorderAt source positions
  let unnamed := t.unnamedAt source
  Noted.noteIf (0 < unnamed) (.unnamed unnamed (t.namespaces.label source))
  return reordered

/-- The `labels` that a request leaves out. -/
def leftOut (t : Table) (labels : List String) : List String :=
  t.namespaces.labels.filter (· ∉ labels)

/-- The table with the namespaces of the given `labels`, in the given order. The first one becomes
the source namespace, and those not given are dropped. -/
def reorder (t : Table) (labels : List String) : Noted Notice Table := do
  match firstRepeated? [] labels with
  | some label => fail (.repeatedRequest labels label)
  | none =>
    let positions ← t.namespaces.positions labels
    match positions with
    | [] => fail (.noRequest t.namespaces.labels)
    | source :: _ =>
      Noted.noteIf (t.leftOut labels ≠ []) (.dropped labels (t.leftOut labels))
      t.reorderNoted source positions

/-- The positions below `size`, with that of the source namespace and another one exchanged. -/
def exchanged (size position : Nat) : List Nat :=
  (List.range size).map fun i => if i = 0 then position else if i = position then 0 else i

/-- The table with the namespace of the given `label` as the source namespace. It changes places
with the source namespace there was; the others stay where they are. -/
def switchSource (t : Table) (label : String) : Noted Notice Table := do
  let position ← t.namespaces.position label
  if position = 0 then return t
  within (.switchSource t.namespaces.labels label)
    (t.reorderNoted position (exchanged t.namespaces.size position))

end Table

end MappingTables
