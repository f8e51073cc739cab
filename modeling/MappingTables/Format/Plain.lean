import MappingTables.Format.Line
import MappingTables.Notice
import MappingTables.Table

/-!
# The plain dialect

A file of the plain dialect has a header and then one line for each class, field and method:

```text
v1	official	named
CLASS	a	Main
FIELD	a	La;	b	instance
METHOD	a	(I)V	c	run
```

The owner of a field or method is given by its name in the first namespace, and needs no line of its
own. Lines that are empty or start with `#` say nothing. The dialect has neither header properties
nor comments nor parameters.

* `Plain.read` reads the bytes of a file, and `Plain.readTexts` the texts of its lines.
* `Plain.write` writes a table: the classes, the fields, the methods, each in the order of the keys.
-/

namespace MappingTables.Format.Plain

open Text

/-- Adds a class that has its own line. It completes one that was only known as an owner, and
repeats one with the same `names`. -/
def addClass (t : Table) (names : Names) : Except Failure Table := do
  let key ← names.requireSource
  match t.classes.get? key with
  | some old =>
    if old.names.isSourceOnly then
      return { t with classes := t.classes.insert key { old with names } }
    else if old.names = names then return t
    else fail (.conflictingRows .classEntry)
  | none => t.addClass { names }

/-- The class with a `key`, a new one if there is none. -/
def owner (t : Table) (key : String) : ClassEntry :=
  (t.classes.get? key).getD { names := Names.ofFirst key t.namespaces.size }

/-- Adds a member to a class by `add`. What stands in `members` under its key already can only be
repeated, with all that a row says of it. -/
def addMember {α : Type} (kind : EntryKind) (key : α → Except Failure MemberKey)
    (row : α → String × Names) (members : OrderedMap MemberKey α)
    (add : ClassEntry → α → Except Failure ClassEntry) (c : ClassEntry) (a : α) :
    Except Failure ClassEntry := do
  match members.get? (← key a) with
  | some old => if row old = row a then return c else fail (.conflictingRows kind)
  | none => add c a

/-- Adds a field by `addMember`, which can only repeat one with the same names. -/
def addField (c : ClassEntry) (f : Field) : Except Failure ClassEntry :=
  addMember .field Field.key (fun f => (f.descriptor, f.names)) c.fields ClassEntry.addField c f

/-- Adds a method by `addMember`, which can only repeat one with the same names. -/
def addMethod (c : ClassEntry) (m : Method) : Except Failure ClassEntry :=
  addMember .method Method.key (fun m => (m.descriptor, m.names)) c.methods ClassEntry.addMethod c m

/-- Adds the member that a line names to its owner, by `add`. -/
def readMember (add : ClassEntry → String → Names → Except Failure ClassEntry) (t : Table)
    (line : Line) : Except Failure Table := do
  let (key, line) ← line.next
  let (descriptor, line) ← line.next
  let names ← line.names t.namespaces.size false
  let c ← within (.inLine line.number) (add (owner t key) descriptor names)
  return { t with classes := t.classes.insert key c }

/-- Adds what a `line` says. -/
def readLine (t : Table) (line : Line) : Except Failure Table := do
  match line.head with
  | "CLASS" =>
    let names ← line.names t.namespaces.size false
    within (.inLine line.number) (addClass t names)
  | "FIELD" => readMember (fun c descriptor names => addField c { descriptor, names }) t line
  | "METHOD" => readMember (fun c descriptor names => addMethod c { descriptor, names }) t line
  | head =>
    if head.toList.head? = none ∨ head.toList.head? = some '#' then return t
    else within (.inLine line.number) (fail (.unknownEntryKind head))

/-- The namespaces that the header in a `line` names. -/
def readHeader (line : Line) : Except Failure Namespaces :=
  match line.head with
  | "v1" => within (.onLine 1) (Namespaces.ofLabels line.fields)
  | head => within .notPlain (fail (.unsupportedFormat head))

/-- The table in a file with the given lines: the first one is its header, by `readHeader`, and the
others are read by `readLine`. -/
def readFile : List ReadLine → Except Failure Table
  | [] => fail .noHeader
  | .error cause :: _ => fail cause
  | .ok header :: lines => do
    let namespaces ← readHeader header
    lines.foldlM (fun t line =>
      match line with
      | .ok line => readLine t line
      | .error cause => fail cause) { namespaces }

/-- The table in a file with the given `texts` as its lines. -/
def readTexts (texts : List (Except Cause String)) : Except Failure Table :=
  readFile (readLines texts)

/-- The table in `input`, by its texts. -/
def readInput (input : Input) : Except Failure Table :=
  readTexts input.texts

/-- The table in a file that consists of `bytes`. -/
def read (bytes : ByteArray) : Except Failure Table :=
  readInput { bytes }

/-- The fields for the `names` of an entry. -/
def nameFields (names : Names) : List String :=
  names.slots.map (·.getD "")

/-- The row for a class, with its `nameFields`. -/
def classRow (c : ClassEntry) : String :=
  row 0 ("CLASS" :: nameFields c.names)

/-- The rows for the fields of a class, with the key `owner` of this and their `nameFields`. -/
def fieldRows (owner : String) (c : ClassEntry) : List String :=
  (c.fields.sorted MemberKey.le).map fun (_, f) =>
    row 0 ("FIELD" :: owner :: f.descriptor :: nameFields f.names)

/-- The rows for the methods of a class, with the key `owner` of this and their `nameFields`. -/
def methodRows (owner : String) (c : ClassEntry) : List String :=
  (c.methods.sorted MemberKey.le).map fun (_, m) =>
    row 0 ("METHOD" :: owner :: m.descriptor :: nameFields m.names)

/-- The rows of a table: its header, each `classRow`, and then all `fieldRows` and `methodRows`. -/
def tableRows (t : Table) : List String :=
  let classes := t.classes.sorted textLe
  row 0 ("v1" :: t.namespaces.labels) ::
    (classes.map fun (_, c) => classRow c) ++
    (classes.flatMap fun (key, c) => fieldRows key c) ++
    classes.flatMap fun (key, c) => methodRows key c

/-- The text of a table: its `tableRows`. -/
def write (t : Table) : String :=
  unlines (tableRows t)

/-- What there is to say when a table is written: parameters get lost, and a `Notice` says how
many. -/
def notices (t : Table) : List Notice :=
  if t.count.parameters = 0 then [] else [.droppedParameters t.count.parameters]

end MappingTables.Format.Plain
