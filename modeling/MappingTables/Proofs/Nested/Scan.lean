import MappingTables.Format.Nested
import MappingTables.Proofs.Names
import MappingTables.Proofs.Text.Escape

/-!
# One pass over a file of the nested dialect

The reader of the nested dialect goes down with the outline of a file. Here is the same language
without levels, read line by line from top to bottom: a `Scan` knows how deep the next line may be,
whether lines below some depth are passed over, and which entries a line can belong to.

* `Scan.step`: what a line does, by its depth and its first field.
* `Row.Fails`, `Scan.step_eq_none_iff`: the lines that are refused, and why.
-/

namespace MappingTables

/-! ## Changes in place -/

/-- Changes the value under a key by `f`, if there is one. -/
def OrderedMap.modify {κ α : Type} [DecidableEq κ] (k : κ) (f : α → α) (m : OrderedMap κ α) :
    OrderedMap κ α :=
  match m.get? k with
  | some a => m.insert k (f a)
  | none => m

/-- Changes the parameter with an `index`. -/
def Method.modifyParameter (m : Method) (index : UInt64) (f : Parameter → Parameter) : Method :=
  { m with parameters := m.parameters.modify index f }

/-- Changes the field with a `key`. -/
def ClassEntry.modifyField (c : ClassEntry) (key : MemberKey) (f : Field → Field) : ClassEntry :=
  { c with fields := c.fields.modify key f }

/-- Changes the method with a `key`. -/
def ClassEntry.modifyMethod (c : ClassEntry) (key : MemberKey) (f : Method → Method) : ClassEntry :=
  { c with methods := c.methods.modify key f }

/-- Changes the class with a `key`. -/
def Table.modifyClass (t : Table) (key : String) (f : ClassEntry → ClassEntry) : Table :=
  { t with classes := t.classes.modify key f }

namespace Format.Nested

open Text

/-! ## The rows of a file -/

/-- The key of an entry within the entry around it. -/
inductive EntryKey where
  | ofClass (key : String)
  | ofField (key : MemberKey)
  | ofMethod (key : MemberKey)
  | ofParameter (index : UInt64)
deriving DecidableEq, Repr

/-- What a line is about. -/
inductive Row where
  | property
  | classRow
  | fieldRow (owner : String)
  | methodRow (owner : String)
  | parameterRow (owner : String) (method : MemberKey)
  | comment
  | other
deriving DecidableEq, Repr

/-- What a `line` is about, by whether an unindented line was seen, the `live` entries around it,
its depth and its first field. -/
def rowOf (inBody : Bool) (live : List EntryKey) (line : Line) : Row :=
  match inBody, line.depth, live with
  | false, _, _ => .property
  | true, 0, _ => if line.head = "c" then .classRow else .other
  | true, 1, [.ofClass owner] =>
    if line.head = "f" then .fieldRow owner
    else if line.head = "m" then .methodRow owner
    else if line.head = "c" then .comment
    else .other
  | true, 2, [.ofClass owner, .ofMethod key] =>
    if line.head = "p" then .parameterRow owner key
    else if line.head = "c" then .comment
    else .other
  | true, _, _ => if line.head = "c" then .comment else .other

section Fields

variable (t : Table)

/-- The names in `fields`, one for each namespace of a table. They are escaped if the table has the
header property that says so. -/
def namesOf (fields : List String) : Option Names :=
  if fields.length = t.namespaces.size then
    (if t.properties.contains escapedNames then fields.mapM fun field => (unescape field).toOption
      else some fields).map Names.ofTexts
  else none

/-- The names in `fields`, and the first one of them, which has to be there. -/
def keyedNamesOf (fields : List String) : Option (String × Names) := do
  let names ← namesOf t fields
  return (← names.source, names)

/-- The descriptor and the names of a field or method, by `keyedNamesOf`. -/
def memberOf : List String → Option (MemberKey × Names)
  | [] => none
  | descriptor :: fields => do
    let (name, names) ← keyedNamesOf t fields
    return ({ name, descriptor }, names)

/-- The index and the names of a parameter, by `namesOf`. -/
def parameterOf : List String → Option Parameter
  | [] => none
  | index :: fields => do
    let index ← (readNumeral UInt64.size index).toOption
    return { index := UInt64.ofNat index, names := ← namesOf t fields }

/-- The text of a comment, if it is one field that `unescape` can read. -/
def commentOf : List String → Option String
  | [field] => (unescape field).toOption
  | _ => none

end Fields

/-- The table with a `text` added to the comment of an entry. -/
def commentOn (t : Table) (text : String) : List EntryKey → Table
  | [.ofClass owner] =>
    t.modifyClass owner fun c => { c with comment := appendComment c.comment text }
  | [.ofClass owner, .ofField key] =>
    t.modifyClass owner (·.modifyField key fun f =>
      { f with comment := appendComment f.comment text })
  | [.ofClass owner, .ofMethod key] =>
    t.modifyClass owner (·.modifyMethod key fun m =>
      { m with comment := appendComment m.comment text })
  | [.ofClass owner, .ofMethod key, .ofParameter index] =>
    t.modifyClass owner (·.modifyMethod key (·.modifyParameter index fun p =>
      { p with comment := appendComment p.comment text }))
  | _ => t

/-! ## The scan -/

/-- Where a scan is after some lines. -/
structure Scan where
  table : Table
  /-- Whether a line without indentation was seen. -/
  inBody : Bool
  /-- How deep the next line may be. -/
  limit : Nat
  /-- Lines deeper than this one are passed over. -/
  skip : Option Nat
  /-- The entries that the next line can belong to, the outermost one first. -/
  live : List EntryKey
deriving DecidableEq

namespace Scan

/-- A `Scan` that has seen nothing but a header. -/
def start (namespaces : Namespaces) : Scan where
  table := { namespaces }
  inBody := false
  limit := 1
  skip := none
  live := []

/-- What a `line` does to a table, with the `live` entries that it can belong to. -/
def act (t : Table) (inBody : Bool) (live : List EntryKey) (line : Line) : Option Scan :=
  match rowOf inBody live line with
  | .property =>
    some {
      table := { t with properties := t.properties.insert line.head line.fields.head? }
      inBody, limit := 1, skip := none, live }
  | .classRow => do
    let (key, names) ← keyedNamesOf t line.fields
    return {
      table := { t with classes := t.classes.insert key (t.mergedClass key { names }) }
      inBody, limit := 1, skip := none, live := [.ofClass key] }
  | .fieldRow owner => do
    let (key, names) ← memberOf t line.fields
    let f : Field := { descriptor := key.descriptor, names }
    return {
      table := t.modifyClass owner fun c =>
        { c with fields := c.fields.insert key (c.mergedField key f) }
      inBody, limit := 2, skip := none, live := [.ofClass owner, .ofField key] }
  | .methodRow owner => do
    let (key, names) ← memberOf t line.fields
    let m : Method := { descriptor := key.descriptor, names }
    return {
      table := t.modifyClass owner fun c =>
        { c with methods := c.methods.insert key (c.mergedMethod key m) }
      inBody, limit := 2, skip := none, live := [.ofClass owner, .ofMethod key] }
  | .parameterRow owner key => do
    let p ← parameterOf t line.fields
    return {
      table := t.modifyClass owner (·.modifyMethod key (·.mergeParameter p))
      inBody, limit := 3, skip := none,
      live := [.ofClass owner, .ofMethod key, .ofParameter p.index] }
  | .comment => do
    let text ← commentOf line.fields
    return { table := commentOn t text live, inBody, limit := line.depth, skip := none, live }
  | .other => some { table := t, inBody, limit := line.depth, skip := some line.depth, live }

/-- Whether a line of the given `depth` is passed over. -/
def ignores (s : Scan) (depth : Nat) : Bool :=
  s.skip.any (· < depth)

/-- What a `line` does. It ends all entries that are not less deep than itself. -/
def step (s : Scan) (line : Line) : Option Scan :=
  if s.ignores line.depth then some s
  else if s.limit < line.depth then none
  else act s.table (s.inBody || line.depth == 0) (s.live.take line.depth) line

/-- What a line does by `step`, if it can be read. -/
def read (s : Scan) : ReadLine → Option Scan
  | .ok line => s.step line
  | .error _ => none

/-- What `lines` do, one after the other. -/
def run (s : Scan) (lines : List ReadLine) : Option Scan :=
  lines.foldlM read s

end Scan

/-! ## Lines that are refused -/

/-- Whether names are escaped in a table and one of the `fields` is not escaped as it should be. -/
def BadEscape (t : Table) (fields : List String) : Prop :=
  t.properties.contains escapedNames = true ∧ ∃ field ∈ fields, (unescape field).toOption = none

/-- Whether a row with the given `fields` is refused: for a wrong number of fields, a bad index, a
bad escape, or, other than with parameters, a missing first name. -/
def Row.Fails (t : Table) (fields : List String) : Row → Prop
  | .property => False
  | .classRow =>
    fields.length ≠ t.namespaces.size ∨ BadEscape t fields ∨ fields.head? = some ""
  | .fieldRow _ | .methodRow _ =>
    fields.length ≠ t.namespaces.size + 1 ∨ BadEscape t fields.tail ∨ fields.tail.head? = some ""
  | .parameterRow _ _ =>
    fields.length ≠ t.namespaces.size + 1 ∨
      (∃ index ∈ fields.head?, (readNumeral UInt64.size index).toOption = none) ∨
      BadEscape t fields.tail
  | .comment => fields.length ≠ 1 ∨ ∃ field ∈ fields, (unescape field).toOption = none
  | .other => False

section Fails

variable {t : Table} {fields : List String}

/-- `mapM` gives nothing exactly if `f` does so on one of the items. -/
theorem mapM_eq_none_iff {α β : Type} {f : α → Option β} {l : List α} :
    l.mapM f = none ↔ ∃ a ∈ l, f a = none := by
  induction l with
  | nil => simp
  | cons a l ih =>
    rw [List.mapM_cons]
    cases ha : f a with
    | none => simp [ha]
    | some b =>
      cases hl : l.mapM f with
      | none => simpa [ha, hl] using ih
      | some bs => simpa [ha, hl] using ih

/-- `namesOf` refuses names for their number or for a `BadEscape`. -/
theorem namesOf_eq_none_iff :
    namesOf t fields = none ↔ fields.length ≠ t.namespaces.size ∨ BadEscape t fields := by
  unfold namesOf BadEscape
  by_cases hlength : fields.length = t.namespaces.size
  · by_cases hescaped : t.properties.contains escapedNames = true
    · simp [hlength, hescaped, mapM_eq_none_iff]
    · simp [hlength, hescaped]
  · simp [hlength]

/-- The `source` of names that `namesOf` makes is missing if its field is empty. -/
theorem source_namesOf {names : Names} (h : namesOf t fields = some names) :
    names.source = none ↔ fields.head? = some "" := by
  unfold namesOf at h
  split at h
  · next hlength =>
    obtain ⟨texts, htexts, rfl⟩ := Option.map_eq_some_iff.1 h
    cases fields with
    | nil => exact absurd (List.length_eq_zero_iff.1 hlength.symm) t.namespaces.valid.1
    | cons field fields =>
      -- the first text is empty exactly if its field is, escaped or not
      obtain ⟨text, rest, rfl, hempty⟩ :
          ∃ text rest, texts = text :: rest ∧ (text = "" ↔ field = "") := by
        split at htexts
        · rw [List.mapM_cons] at htexts
          obtain ⟨text, htext, htexts⟩ := Option.bind_eq_some_iff.1 htexts
          obtain ⟨rest, -, htexts⟩ := Option.bind_eq_some_iff.1 htexts
          refine ⟨text, rest, (Option.some.inj htexts).symm, ?_⟩
          have hfield : unescape field = .ok text := by
            cases hfield : unescape field <;> rw [hfield] at htext <;> cases htext
            rfl
          rw [← unescape_eq_ok_empty_iff (s := field), hfield, Except.ok.injEq]
        · exact ⟨field, fields, (Option.some.inj htexts).symm, Iff.rfl⟩
      rw [List.head?_cons, Option.some.injEq, ← hempty]
      by_cases htext : text = "" <;> simp [Names.ofTexts, Names.source, Names.get, htext]
  · cases h

/-- `keyedNamesOf` refuses names as `namesOf` does, and also if the first one of them is missing. -/
theorem keyedNamesOf_eq_none_iff : keyedNamesOf t fields = none ↔
    fields.length ≠ t.namespaces.size ∨ BadEscape t fields ∨ fields.head? = some "" := by
  rw [← or_assoc, ← namesOf_eq_none_iff, keyedNamesOf]
  cases hnames : namesOf t fields with
  | none => simp
  | some names =>
    rw [← source_namesOf hnames]
    cases hsource : names.source <;> simp [hsource]

/-- `memberOf` refuses a field or method if its names are refused, or if there is no descriptor. -/
theorem memberOf_eq_none_iff : memberOf t fields = none ↔
    fields.length ≠ t.namespaces.size + 1 ∨ BadEscape t fields.tail ∨
      fields.tail.head? = some "" := by
  cases fields with
  | nil => simp [memberOf]
  | cons descriptor fields =>
    rw [List.length_cons, List.tail_cons, ne_eq, Nat.succ_inj, ← ne_eq, ← keyedNamesOf_eq_none_iff,
      memberOf]
    cases keyedNamesOf t fields <;> simp

/-- `parameterOf` refuses a parameter if its names are refused, or if its index is no number. -/
theorem parameterOf_eq_none_iff : parameterOf t fields = none ↔
    fields.length ≠ t.namespaces.size + 1 ∨
      (∃ index ∈ fields.head?, (readNumeral UInt64.size index).toOption = none) ∨
      BadEscape t fields.tail := by
  cases fields with
  | nil => simp [parameterOf]
  | cons index fields =>
    rw [List.length_cons, List.tail_cons, ne_eq, Nat.succ_inj, ← ne_eq, or_left_comm,
      ← namesOf_eq_none_iff, parameterOf]
    cases hindex : (readNumeral UInt64.size index).toOption with
    | none => simp [hindex]
    | some value => cases namesOf t fields <;> simp [hindex]

/-- `commentOf` refuses a comment if it is not one text, or if that is not escaped as it should
be. -/
theorem commentOf_eq_none_iff : commentOf fields = none ↔
    fields.length ≠ 1 ∨ ∃ field ∈ fields, (unescape field).toOption = none := by
  rcases fields with _ | ⟨field, _ | ⟨field', fields⟩⟩ <;> simp [commentOf]

/-- `act` does nothing for a row exactly if it `Fails`. -/
theorem Scan.act_eq_none_iff {inBody : Bool} {live : List EntryKey} {line : Line} :
    act t inBody live line = none ↔ (rowOf inBody live line).Fails t line.fields := by
  unfold act Row.Fails
  split
  · simp
  · rw [← keyedNamesOf_eq_none_iff]
    cases keyedNamesOf t line.fields <;> simp
  · rw [← memberOf_eq_none_iff]
    cases memberOf t line.fields <;> simp
  · rw [← memberOf_eq_none_iff]
    cases memberOf t line.fields <;> simp
  · rw [← parameterOf_eq_none_iff]
    cases parameterOf t line.fields <;> simp
  · rw [← commentOf_eq_none_iff]
    cases commentOf line.fields <;> simp
  · simp

/-- `step` refuses a line exactly if it is not passed over and is too deep or has a row that
`Fails`. -/
theorem Scan.step_eq_none_iff {s : Scan} {line : Line} : s.step line = none ↔
    s.ignores line.depth = false ∧ (s.limit < line.depth ∨
      (rowOf (s.inBody || line.depth == 0) (s.live.take line.depth) line).Fails s.table
        line.fields) := by
  unfold step
  split
  · next h => simp [h]
  · next h =>
    rw [Bool.not_eq_true] at h
    split
    · next hlimit => simp [h, hlimit]
    · next hlimit => simp [h, hlimit, act_eq_none_iff]

end Fails

end Format.Nested

end MappingTables
