import MappingTables.Format.Outline
import MappingTables.Table

/-!
# The nested dialect

A file of the nested dialect starts with a header and the header properties, and then lists the
classes with their members nested below them:

```text
tiny	2	0	official	named
	escaped-names
c	a	Main
	c	A comment on the class.
	f	La;	b	instance
	m	(I)V	c	run
		p	1		count
```

An entry can appear more than once: later names overlay earlier ones, members are added, and
comments are joined by line feeds. Sections of an unknown kind are passed over with all below them.

* `Nested.read` reads the bytes of a file, and `Nested.readTexts` the texts of its lines.
* `Nested.write` writes a table, all entries in the order of their keys.
-/

namespace MappingTables.Format.Nested

open Text

/-- The header property that says that names are escaped. -/
def escapedNames : String := "escaped-names"

/-- A `comment` with another one after it. -/
def appendComment (comment : Option String) (text : String) : Option String :=
  match comment with
  | some earlier => some (earlier ++ "\n" ++ text)
  | none => some text

/-- The comment in a `line`. -/
def readComment (line : Line) : Except Failure String := do
  unescapeText (← line.only)

/-- Adds what is said below an entry without members: comments, by `addComment`. -/
def readBelowLeaf {α : Type} (addComment : α → String → α) (a : α) (line : Line)
    (body : List ReadLine) : Except Failure (α × List ReadLine) := do
  match line.head with
  | "c" => return (addComment a (← readComment line), body)
  | _ =>
    skip body
    return (a, [])

/-- Adds what is said below a parameter, by `readBelowLeaf`. -/
def readBelowParameter :
    Parameter → Line → List ReadLine → Except Failure (Parameter × List ReadLine) :=
  readBelowLeaf fun p text => { p with comment := appendComment p.comment text }

/-- Adds what is said below a field, by `readBelowLeaf`. -/
def readBelowField : Field → Line → List ReadLine → Except Failure (Field × List ReadLine) :=
  readBelowLeaf fun f text => { f with comment := appendComment f.comment text }

/-- The parameter that a `line` names. -/
def readParameter (size : Nat) (escaped : Bool) (line : Line) : Except Failure Parameter := do
  let (index, line) ← line.next
  let index ← within .parameterIndex
    ((readNumeral UInt64.size index).mapError fun fault => .ofCause (.numeral fault))
  return { index := UInt64.ofNat index, names := ← line.names size escaped }

/-- Adds what a `line` below a method says. -/
def readBelowMethod (size : Nat) (escaped : Bool) (m : Method) (line : Line)
    (body : List ReadLine) : Except Failure (Method × List ReadLine) := do
  match line.head with
  | "p" =>
    let p ← readParameter size escaped line
    let p ← within (.inSection .belowParameter)
      (readLevel 3 readBelowParameter (m.mergedParameter p) body)
    return ({ m with parameters := m.parameters.insert p.index p }, [])
  | "c" => return ({ m with comment := appendComment m.comment (← readComment line) }, body)
  | _ =>
    skip body
    return (m, [])

/-- Adds what a `line` below a class says. -/
def readBelowClass (size : Nat) (escaped : Bool) (c : ClassEntry) (line : Line)
    (body : List ReadLine) : Except Failure (ClassEntry × List ReadLine) := do
  match line.head with
  | "f" =>
    let (descriptor, line) ← line.next
    let f : Field := { descriptor, names := ← line.names size escaped }
    let key ← f.key
    let f ← within (.inSection .belowField) (readLevel 2 readBelowField (c.mergedField key f) body)
    return ({ c with fields := c.fields.insert key f }, [])
  | "m" =>
    let (descriptor, line) ← line.next
    let m : Method := { descriptor, names := ← line.names size escaped }
    let key ← m.key
    let m ← within (.inSection .belowMethod)
      (readLevel 2 (readBelowMethod size escaped) (c.mergedMethod key m) body)
    return ({ c with methods := c.methods.insert key m }, [])
  | "c" => return ({ c with comment := appendComment c.comment (← readComment line) }, body)
  | _ =>
    skip body
    return (c, [])

/-- Adds what a `line` of the outermost level says. -/
def readTopLevel (escaped : Bool) (t : Table) (line : Line) (body : List ReadLine) :
    Except Failure (Table × List ReadLine) := do
  match line.head with
  | "c" =>
    let size := t.namespaces.size
    let c : ClassEntry := { names := ← line.names size escaped }
    t.checkSlots c.names
    let key ← c.names.requireSource
    let c ← within (.inSection .belowClass)
      (readLevel 1 (readBelowClass size escaped) (t.mergedClass key c) body)
    return ({ t with classes := t.classes.insert key c }, [])
  | _ =>
    skip body
    return (t, [])

/-- Adds a header property to `properties`. Its value is the second field; more fields mean
nothing. -/
def readProperty (properties : OrderedMap String (Option String)) (line : Line)
    (body : List ReadLine) :
    Except Failure (OrderedMap String (Option String) × List ReadLine) :=
  .ok (properties.insert line.head line.fields.head?, body)

/-- The namespaces that the header in a `line` names. -/
def readHeader (line : Line) : Except Failure Namespaces :=
  match line.head, line.fields with
  | "tiny", "2" :: "0" :: labels => within (.onLine line.number) (Namespaces.ofLabels labels)
  | head, _ => within .notNested (fail (.unsupportedFormat head))

/-- The table in a file with the given lines: the first one is its header, by `readHeader`, and the
others are read by `readProperty` and `readTopLevel`. -/
def readFile : List ReadLine → Except Failure Table
  | [] => fail .noHeader
  | .error cause :: _ => fail cause
  | .ok header :: lines => do
    let namespaces ← readHeader header
    let properties ← within (.inSection .headerProperties)
      (readLevel 1 readProperty ∅ (lines.takeWhile (isDeeper 0)))
    within (.inSection .table)
      (readLevel 0 (readTopLevel (properties.contains escapedNames)) { namespaces, properties }
        (lines.dropWhile (isDeeper 0)))

/-- The table in a file with the given `texts` as its lines. -/
def readTexts (texts : List (Except Cause String)) : Except Failure Table :=
  readFile (readLines texts)

/-- The table in `input`, by its texts. -/
def readInput (input : Input) : Except Failure Table :=
  readTexts input.texts

/-- The table in a file that consists of `bytes`. -/
def read (bytes : ByteArray) : Except Failure Table :=
  readInput { bytes }

section Writer

variable (escaped : Bool)

/-- The fields for the `names` of an entry. -/
def nameFields (names : Names) : List String :=
  names.slots.map fun
    | some name => if escaped then escape name else name
    | none => ""

/-- The row for a `comment`, if there is one. -/
def commentRows (depth : Nat) (comment : Option String) : List String :=
  match comment with
  | some text => [row depth ["c", escape text]]
  | none => []

/-- The rows for a parameter: its own one, and the `commentRows`. -/
def parameterRows (p : Parameter) : List String :=
  row 2 ("p" :: toString p.index.toNat :: nameFields escaped p.names) :: commentRows 3 p.comment

/-- The rows for a field: its own one, and the `commentRows`. -/
def fieldRows (f : Field) : List String :=
  row 1 ("f" :: f.descriptor :: nameFields escaped f.names) :: commentRows 2 f.comment

/-- The rows for a method and its parameters: its own one, the `commentRows`, and the
`parameterRows`. -/
def methodRows (m : Method) : List String :=
  row 1 ("m" :: m.descriptor :: nameFields escaped m.names) :: commentRows 2 m.comment ++
    (m.parameters.sorted indexLe).flatMap fun (_, p) => parameterRows escaped p

/-- The rows for a class and all in it: its own one, the `commentRows`, the `fieldRows` and the
`methodRows`. -/
def classRows (c : ClassEntry) : List String :=
  row 0 ("c" :: nameFields escaped c.names) :: commentRows 1 c.comment ++
    ((c.fields.sorted MemberKey.le).flatMap fun (_, f) => fieldRows escaped f) ++
    (c.methods.sorted MemberKey.le).flatMap fun (_, m) => methodRows escaped m

end Writer

/-- The row for a header property under a `key`. -/
def propertyRow (key : String) (value : Option String) : String :=
  row 1 (key :: value.toList)

/-- The rows of a table: its header, each `propertyRow`, and the `classRows`. -/
def tableRows (t : Table) : List String :=
  let escaped := t.properties.contains escapedNames
  row 0 ("tiny" :: "2" :: "0" :: t.namespaces.labels) ::
    (t.properties.entries.map fun (key, value) => propertyRow key value) ++
    (t.classes.sorted textLe).flatMap fun (_, c) => classRows escaped c

/-- The text of a table: its `tableRows`. -/
def write (t : Table) : String :=
  unlines (tableRows t)

end MappingTables.Format.Nested
