import MappingTables.Reorder

/-!
# Merging tables

Two tables that share exactly one namespace can be merged. Both are rooted at the shared namespace,
entries are matched by their keys in it, and the result has the namespaces of the left table
followed by the other ones of the right table, rooted like the left table.

An entry of one table only has no names in the namespaces of the other one. Where both tables give
a value for the same thing, and the values differ, that of the left table is kept and a conflict is
noted. An entry without a name in the shared namespace cannot be matched: it is an error if its key
is there on the other side.
-/

namespace MappingTables

open Text

/-- How the slots of two tables are laid out side by side. -/
structure Layout where
  /-- The label of the shared namespace, whose slot comes first. -/
  shared : String
  /-- How many slots follow for the other namespaces of the left table. -/
  leftSlots : Nat
  /-- How many slots follow for the other namespaces of the right table. -/
  rightSlots : Nat

/-- The slots beside that of the shared namespace, `size` empty ones if there is no entry. -/
def besideShared (names : Option Names) (size : Nat) : List (Option String) :=
  match names with
  | some names => names.slots.tail
  | none => List.replicate size none

/-- The value of the `left` side, or else of the `right` side. Where both sides have one and they
differ, that is a `Conflict`. -/
def joinValue (location subject : String) (left right : Option String) :
    Noted Conflict (Option String) := do
  match left, right with
  | some kept, some discarded =>
    Noted.noteIf (kept ≠ discarded) { location, subject, kept, discarded }
    return some kept
  | left, right => return left.or right

/-- The names of an entry of one table or both, side by side as the `layout` says. -/
def Layout.joinNames (layout : Layout) (location : String) (left right : Option Names) :
    Noted Conflict Names := do
  let shared ← joinValue location layout.shared (left.bind Names.source) (right.bind Names.source)
  Names.ofSlots (shared :: besideShared left layout.leftSlots ++
    besideShared right layout.rightSlots)

/-- The comment of an entry of one table or both, by `joinValue`. -/
def joinComments (location : String) (left right : Option String) :
    Noted Conflict (Option String) :=
  joinValue location "comment" left right

/-- Checks that an entry with the same key on both sides has a name in the shared namespace, on the
`left` side and on the `right` side. -/
def checkJoinable (location : String) (left right : Option Names) : Except Failure Unit :=
  match left, right with
  | some left, some right =>
    if left.source.isNone ∨ right.source.isNone then fail (.unjoinable location) else .ok ()
  | _, _ => .ok ()

/-- The keys of one map or both, in ascending order by `le`. -/
def unionKeys {κ α : Type} [DecidableEq κ] (le : κ → κ → Bool)
    (left right : Option (OrderedMap κ α)) : List κ :=
  let leftKeys := (left.map OrderedMap.keys).getD []
  let rightKeys := (right.map OrderedMap.keys).getD []
  (leftKeys ++ rightKeys.filter (· ∉ leftKeys)).mergeSort le

/-- What is under a key of a map, if there is a map, as `get?` finds it. -/
def entryOf {κ α : Type} [DecidableEq κ] (m : Option (OrderedMap κ α)) (k : κ) : Option α :=
  m.bind (OrderedMap.get? · k)

/-- Where a class with a `key` is. -/
def classLocation (key : String) : String :=
  "class " ++ quote key

/-- Where a field or method of a class is, `word` says which of them. -/
def memberLocation (word owner : String) (key : MemberKey) : String :=
  classLocation owner ++ " " ++ word ++ " " ++ quote key.name ++ " " ++ quote key.descriptor

/-- Where a parameter of a `method` is. -/
def parameterLocation (method : String) (index : UInt64) : String :=
  method ++ " parameter " ++ toString index.toNat

namespace Layout

variable (layout : Layout)

/-- A parameter of one table or both, with its names by `joinNames`. -/
def joinParameter (method : String) (index : UInt64) (left right : Option Parameter) :
    Noted Conflict Parameter := do
  let location := parameterLocation method index
  let names ← layout.joinNames location (left.map (·.names)) (right.map (·.names))
  let comment ← joinComments location (left.bind (·.comment)) (right.bind (·.comment))
  return { index, names, comment }

/-- A field of one table or both, with its names by `joinNames`. -/
def joinField (owner : String) (key : MemberKey) (left right : Option Field) :
    Noted Conflict Field := do
  let location := memberLocation "field" owner key
  checkJoinable location (left.map (·.names)) (right.map (·.names))
  let names ← layout.joinNames location (left.map (·.names)) (right.map (·.names))
  let comment ← joinComments location (left.bind (·.comment)) (right.bind (·.comment))
  return { descriptor := key.descriptor, names, comment }

/-- A method of one table or both, with its names by `joinNames` and its parameters by
`joinParameter`. -/
def joinMethod (owner : String) (key : MemberKey) (left right : Option Method) :
    Noted Conflict Method := do
  let location := memberLocation "method" owner key
  checkJoinable location (left.map (·.names)) (right.map (·.names))
  let names ← layout.joinNames location (left.map (·.names)) (right.map (·.names))
  let comment ← joinComments location (left.bind (·.comment)) (right.bind (·.comment))
  let leftParameters := left.map (·.parameters)
  let rightParameters := right.map (·.parameters)
  let indices := unionKeys indexLe leftParameters rightParameters
  indices.foldlM (fun m index => do
    let p ← layout.joinParameter location index (entryOf leftParameters index)
      (entryOf rightParameters index)
    m.addParameter p) { descriptor := key.descriptor, names, comment }

/-- A class of one table or both, with its names by `joinNames` and its members by `joinField` and
`joinMethod`. -/
def joinClass (key : String) (left right : Option ClassEntry) : Noted Conflict ClassEntry := do
  let location := classLocation key
  checkJoinable location (left.map (·.names)) (right.map (·.names))
  let names ← layout.joinNames location (left.map (·.names)) (right.map (·.names))
  let comment ← joinComments location (left.bind (·.comment)) (right.bind (·.comment))
  let leftFields := left.map (·.fields)
  let rightFields := right.map (·.fields)
  let withFields ← (unionKeys MemberKey.le leftFields rightFields).foldlM (fun c k => do
    let f ← layout.joinField key k (entryOf leftFields k) (entryOf rightFields k)
    c.insertField k f) ({ names, comment } : ClassEntry)
  let leftMethods := left.map (·.methods)
  let rightMethods := right.map (·.methods)
  (unionKeys MemberKey.le leftMethods rightMethods).foldlM (fun c k => do
    let m ← layout.joinMethod key k (entryOf leftMethods k) (entryOf rightMethods k)
    c.insertMethod k m) withFields

end Layout

namespace Table

/-- The header properties of both tables; where both have one, that of the `left` table. -/
def joinProperties (left right : Table) : OrderedMap String (Option String) :=
  right.properties.entries.foldl
    (fun m (key, value) => if m.contains key then m else m.insert key value) left.properties

/-- Two tables with the same source namespace, side by side, with their classes by `joinClass`. -/
def join (left right : Table) : Noted Conflict Table := do
  let namespaces ← Namespaces.ofLabels (left.namespaces.labels ++ right.namespaces.labels.tail)
  let layout : Layout :=
    { shared := namespaces.source
      leftSlots := left.namespaces.size - 1
      rightSlots := right.namespaces.size - 1 }
  (unionKeys textLe (some left.classes) (some right.classes)).foldlM (fun t key => do
    let c ← layout.joinClass key (left.classes.get? key) (right.classes.get? key)
    t.insertClass key c) ({ namespaces, properties := joinProperties left right } : Table)

/-- The labels that both the `left` table and the `right` table have. -/
def sharedLabels (left right : Table) : List String :=
  left.namespaces.labels.filter (· ∈ right.namespaces.labels)

/-- The labels of the merged table: those of the `left` table, then the other ones of the `right`
one. -/
def mergedLabels (left right : Table) (shared : String) : List String :=
  left.namespaces.labels ++ right.namespaces.labels.filter (· ≠ shared)

/-- The merged table, by `join` of the two as they are after `switchSource`, and each `Conflict`
there was. -/
def merge (left right : Table) : Noted Notice (Table × List Conflict) := do
  match sharedLabels left right with
  | [shared] =>
    let l ← within .switchLeft (left.switchSource shared)
    let r ← within .switchRight (right.switchSource shared)
    let joined := join l r
    let t ← joined.mapNotes .conflict
    let merged ← within .reorderMerged (t.reorder (mergedLabels left right shared))
    return (merged, joined.notes)
  | shared =>
    fail (.incompatibleTables left.namespaces.labels right.namespaces.labels shared)

end Table

end MappingTables
