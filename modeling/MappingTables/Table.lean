import MappingTables.Namespaces
import MappingTables.Names
import MappingTables.OrderedMap

/-!
# Mapping tables

A table holds the classes of a program with their fields and methods, and the methods' parameters,
each with its names in all namespaces of the table.

Classes, fields and methods are keyed by their name in the source namespace, fields and methods also
by their descriptor, and parameters by their index. An entry that has no name in the source
namespace, as happens when a table is re-rooted, is keyed by the name it had before. The key is
stored apart from the names, so that it can outlive them; whether the two agree is a property of a
table and not part of its type.

Two tables are `equiv` if they hold the same, in whatever order it was inserted.
-/

namespace MappingTables

/-- The key of a field or method within its class. -/
@[ext]
structure MemberKey where
  /-- The name in the source namespace. -/
  name : String
  /-- The descriptor, with class names of the source namespace. -/
  descriptor : String
deriving DecidableEq, Repr

/-- Keys are ordered by `name`, then by `descriptor`. -/
def MemberKey.le (a b : MemberKey) : Bool :=
  if a.name = b.name then decide (a.descriptor ≤ b.descriptor) else decide (a.name ≤ b.name)

/-- Texts are ordered by their characters' code points. -/
def textLe (a b : String) : Bool :=
  decide (a ≤ b)

/-- Indices are ordered by size. -/
def indexLe (a b : UInt64) : Bool :=
  decide (a ≤ b)

/-- A parameter of a method. -/
@[ext]
structure Parameter where
  /-- The index of its local variable. -/
  index : UInt64
  names : Names
  comment : Option String := none
deriving DecidableEq, Repr

/-- A field of a class. -/
@[ext]
structure Field where
  /-- The type, with class names of the source namespace. -/
  descriptor : String
  names : Names
  comment : Option String := none
deriving DecidableEq, Repr

/-- A method of a class. -/
@[ext]
structure Method where
  /-- The signature, with class names of the source namespace. -/
  descriptor : String
  names : Names
  comment : Option String := none
  /-- The parameters by their indices. -/
  parameters : OrderedMap UInt64 Parameter := ∅
deriving DecidableEq

/-- A class. -/
@[ext]
structure ClassEntry where
  names : Names
  comment : Option String := none
  fields : OrderedMap MemberKey Field := ∅
  methods : OrderedMap MemberKey Method := ∅
deriving DecidableEq

/-- A mapping table. -/
@[ext]
structure Table where
  namespaces : Namespaces
  /-- What the header says apart from the namespaces: values under keys, or keys alone. -/
  properties : OrderedMap String (Option String) := ∅
  /-- The classes by their names in the source namespace. -/
  classes : OrderedMap String ClassEntry := ∅
deriving DecidableEq

/-- The key of a field by its source name, which `requireSource` asks for, and its descriptor. -/
def Field.key (f : Field) : Except Failure MemberKey := do
  return { name := ← f.names.requireSource, descriptor := f.descriptor }

/-- The key of a method by its source name, which `requireSource` asks for, and its descriptor. -/
def Method.key (m : Method) : Except Failure MemberKey := do
  return { name := ← m.names.requireSource, descriptor := m.descriptor }

section Insertion

variable {κ α : Type} [DecidableEq κ]

/-- Puts an entry under a key that must not be taken, by `insertNew?`. -/
def insertNew (k : κ) (a : α) (m : OrderedMap κ α) : Except Failure (OrderedMap κ α) :=
  match m.insertNew? k a with
  | some m => .ok m
  | none => fail .duplicateKey

end Insertion

namespace Method

/-- Adds a parameter `p` under its index, which must not be taken. -/
def addParameter (m : Method) (p : Parameter) : Except Failure Method := do
  return { m with parameters := ← insertNew p.index p m.parameters }

/-- A parameter `p` as it is after merging: the one with the same index with its names overlaid by
`Names.overlay`, or the parameter itself if there is none. -/
def mergedParameter (m : Method) (p : Parameter) : Parameter :=
  (m.parameters.get? p.index).elim p fun old => { old with names := old.names.overlay p.names }

/-- Adds a parameter, or overlays the names of the one with the same index, as `mergedParameter`
says. -/
def mergeParameter (m : Method) (p : Parameter) : Method :=
  { m with parameters := m.parameters.insert p.index (m.mergedParameter p) }

end Method

namespace ClassEntry

/-- Puts a field under a `key` that must not be taken. -/
def insertField (c : ClassEntry) (key : MemberKey) (f : Field) : Except Failure ClassEntry := do
  return { c with fields := ← insertNew key f c.fields }

/-- Puts a method under a `key` that must not be taken. -/
def insertMethod (c : ClassEntry) (key : MemberKey) (m : Method) : Except Failure ClassEntry := do
  return { c with methods := ← insertNew key m c.methods }

/-- Adds a field under its own `Field.key`. -/
def addField (c : ClassEntry) (f : Field) : Except Failure ClassEntry := do
  c.insertField (← f.key) f

/-- Adds a method under its own `Method.key`. -/
def addMethod (c : ClassEntry) (m : Method) : Except Failure ClassEntry := do
  c.insertMethod (← m.key) m

/-- A field as it is after merging: the one with the same `key` with its names overlaid, or the
field itself if there is none. -/
def mergedField (c : ClassEntry) (key : MemberKey) (f : Field) : Field :=
  (c.fields.get? key).elim f fun old => { old with names := old.names.overlay f.names }

/-- Adds a field, or overlays the names of the one with the same key, as `mergedField` says. -/
def mergeField (c : ClassEntry) (f : Field) : Except Failure ClassEntry := do
  let key ← f.key
  return { c with fields := c.fields.insert key (c.mergedField key f) }

/-- A method as it is after merging: the one with the same `key` with its names overlaid, or the
method itself if there is none. -/
def mergedMethod (c : ClassEntry) (key : MemberKey) (m : Method) : Method :=
  (c.methods.get? key).elim m fun old => { old with names := old.names.overlay m.names }

/-- Adds a method, or overlays the names of the one with the same key, as `mergedMethod` says. -/
def mergeMethod (c : ClassEntry) (m : Method) : Except Failure ClassEntry := do
  let key ← m.key
  return { c with methods := c.methods.insert key (c.mergedMethod key m) }

end ClassEntry

/-- The sum of what a function gives for the `items` of a list. -/
def total {α : Type} (f : α → Nat) (items : List α) : Nat :=
  items.foldr (fun a n => f a + n) 0

/-- How many entries of each kind there are. -/
structure Count where
  classes : Nat
  fields : Nat
  methods : Nat
  parameters : Nat
deriving DecidableEq, Repr

namespace Table

/-- Checks that `names` has a slot for each namespace. -/
def checkSlots (t : Table) (names : Names) : Except Failure Unit :=
  if names.size = t.namespaces.size then .ok ()
  else fail (.slotCount names.size t.namespaces.labels)

/-- Puts a class under a `key` that must not be taken. -/
def insertClass (t : Table) (key : String) (c : ClassEntry) : Except Failure Table := do
  t.checkSlots c.names
  return { t with classes := ← insertNew key c t.classes }

/-- Adds a class under its own key, the name that `requireSource` asks for. -/
def addClass (t : Table) (c : ClassEntry) : Except Failure Table := do
  t.insertClass (← c.names.requireSource) c

/-- A class as it is after merging: the one with the same `key` with its names overlaid, or the
class itself if there is none. -/
def mergedClass (t : Table) (key : String) (c : ClassEntry) : ClassEntry :=
  (t.classes.get? key).elim c fun old => { old with names := old.names.overlay c.names }

/-- Adds a class, or overlays the names of the one with the same key, as `mergedClass` says. Apart
from its names, nothing of the class is taken over in that case. -/
def mergeClass (t : Table) (c : ClassEntry) : Except Failure Table := do
  t.checkSlots c.names
  let key ← c.names.requireSource
  return { t with classes := t.classes.insert key (t.mergedClass key c) }

/-- The name of a class, given by its `key`, in the namespace at a `position`. -/
def className (t : Table) (key : String) (position : Nat) : Except Failure String :=
  match t.classes.get? key with
  | none => fail (.noClass key)
  | some c =>
    match c.names.get position with
    | none => fail (.noClassName position key)
    | some name => .ok name

/-- The `Count` of the entries of each kind that the table holds. -/
def count (t : Table) : Count where
  classes := t.classes.size
  fields := total (fun c => c.fields.size) t.classes.values
  methods := total (fun c => c.methods.size) t.classes.values
  parameters :=
    total (fun c => total (fun m => m.parameters.size) c.methods.values) t.classes.values

end Table

/-- Whether two methods are the same but for the order of their `parameters`. -/
def Method.equiv (m n : Method) : Bool :=
  m.descriptor == n.descriptor && m.names == n.names && m.comment == n.comment &&
    m.parameters.equiv (· == ·) n.parameters

/-- Whether two classes are the same but for the order of their members, and of what is in these, by
`Method.equiv`. -/
def ClassEntry.equiv (c d : ClassEntry) : Bool :=
  c.names == d.names && c.comment == d.comment && c.fields.equiv (· == ·) d.fields &&
    c.methods.equiv Method.equiv d.methods

/-- Whether two tables are the same but for the order of their entries, those of a class by
`ClassEntry.equiv`, and of their properties. -/
def Table.equiv (s t : Table) : Bool :=
  s.namespaces == t.namespaces && s.properties.equiv (· == ·) t.properties &&
    s.classes.equiv ClassEntry.equiv t.classes

end MappingTables
