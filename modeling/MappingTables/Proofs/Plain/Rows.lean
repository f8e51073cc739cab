import MappingTables.Proofs.Places
import MappingTables.Proofs.Plain.Conversion

/-!
# What the rows of the plain dialect say

A row gives the names at a place of the table. A place that has names already can only be given the
same ones again, unless it is that of a class which is known by its source name alone.

* `Row.ofLine?`: what a line says, whatever was said before it.
* `Table.namesAt_putAt`: the table with names put at a place.
* `readLine_eq_ok_iff`: a line puts what it says into the table, if it fits.
-/

namespace MappingTables

deriving instance DecidableEq for Place

/-- Whether a `Place` is that of a class. -/
def Place.isClassEntry : Place → Bool
  | classEntry _ => true
  | _ => false

namespace Format.Plain

open Text

/-! ## Rows -/

/-- What a line says: nothing, or the names at a place. -/
inductive Row where
  | blank
  | entry (p : Place) (names : Names)
deriving DecidableEq

namespace Row

/-- Whether a row has a name for each namespace, as many as `size`, and that in the first one is the
one of its place. -/
def IsSound (size : Nat) : Row → Prop
  | blank => True
  | entry p names => names.size = size ∧ ∃ key ∈ p.keyName?, names.source = some key

/-- The row for a member at the `place` that is given by the fields for its owner and its
descriptor, and by its names. -/
def ofMember? (place : String → MemberKey → Place) (size : Nat) (line : Line) : Option Row := do
  let (owner, line) ← line.next.toOption
  let (descriptor, line) ← line.next.toOption
  let names ← (line.names size false).toOption
  let name ← names.source
  return entry (place owner { name, descriptor }) names

/-- The row for a class, which is told by its source name: the `Row` on a line with names. -/
def ofClass? (size : Nat) (line : Line) : Option Row := do
  let names ← (line.names size false).toOption
  let key ← names.source
  return entry (.classEntry key) names

/-- The row on a `line`, if the line can be read. -/
def ofLine? (size : Nat) (line : Line) : Option Row :=
  if line.head = "CLASS" then ofClass? size line
  else if line.head = "FIELD" then ofMember? .field size line
  else if line.head = "METHOD" then ofMember? .method size line
  else if line.head.toList.head? = none ∨ line.head.toList.head? = some '#' then some blank
  else none

end Row

/-- `names` reads as many names from a line as there are namespaces. -/
theorem size_of_names {size : Nat} {line : Line} {names : Names}
    (h : line.names size false = .ok names) : names.size = size := by
  obtain ⟨hlength, texts, htexts, rfl⟩ := Line.names_eq_ok_iff.1 h
  obtain rfl : line.fields = texts := Except.ok.inj htexts
  exact (Names.size_ofTexts _).trans hlength

namespace Row

variable {size : Nat} {line : Line} {row : Row}

/-- The row that `ofMember?` finds on the line of a member `IsSound`: it says as much as the line
can. -/
theorem isSound_of_ofMember? {place : String → MemberKey → Place}
    (hplace : ∀ owner member, (place owner member).keyName? = some member.name)
    (h : ofMember? place size line = some row) : row.IsSound size := by
  obtain ⟨⟨owner, rest⟩, -, h⟩ := Option.bind_eq_some_iff.1 h
  obtain ⟨⟨descriptor, rest'⟩, -, h⟩ := Option.bind_eq_some_iff.1 h
  obtain ⟨names, hnames, h⟩ := Option.bind_eq_some_iff.1 h
  obtain ⟨name, hname, h⟩ := Option.bind_eq_some_iff.1 h
  cases h
  exact ⟨size_of_names (toOption_eq_some_iff.1 hnames), name, hplace _ _, hname⟩

/-- Every row that `ofLine?` finds `IsSound`: it has a name for each namespace, and the first one is
that of its place. -/
theorem isSound_of_ofLine? (h : ofLine? size line = some row) : row.IsSound size := by
  unfold ofLine? at h
  split_ifs at h
  · obtain ⟨names, hnames, h⟩ := Option.bind_eq_some_iff.1 h
    obtain ⟨key, hkey, h⟩ := Option.bind_eq_some_iff.1 h
    cases h
    exact ⟨size_of_names (toOption_eq_some_iff.1 hnames), key, rfl, hkey⟩
  · exact isSound_of_ofMember? (fun _ _ => rfl) h
  · exact isSound_of_ofMember? (fun _ _ => rfl) h
  · cases h
    trivial

end Row

/-! ## Names put at a place -/

end Format.Plain

namespace ClassEntry

/-- The names at a `Place` in a class. -/
def namesAt (c : ClassEntry) : Place → Option Names
  | .classEntry _ => some c.names
  | .field _ key => (c.fields.get? key).map (·.names)
  | .method _ key => (c.methods.get? key).map (·.names)
  | .parameter _ key index => ((c.methods.get? key).bind (·.parameters.get? index)).map (·.names)

/-- The class with `names` put at a place in it, where a member is put that is not there. -/
def putAt (c : ClassEntry) (names : Names) : Place → ClassEntry
  | .classEntry _ => { c with names }
  | .field _ key =>
    let f : Field := (c.fields.get? key).getD { descriptor := key.descriptor, names }
    { c with fields := c.fields.insert key { f with names } }
  | .method _ key =>
    let m : Method := (c.methods.get? key).getD { descriptor := key.descriptor, names }
    { c with methods := c.methods.insert key { m with names } }
  | .parameter .. => c

/-- What stands in a class after `putAt` put names at a place in it. -/
theorem namesAt_putAt {p q : Place} (hp : p.keyName? ≠ none) (howner : q.owner = p.owner)
    (c : ClassEntry) (names : Names) :
    (c.putAt names p).namesAt q = if q = p then some names else c.namesAt q := by
  cases p with
  | classEntry key =>
    cases q with
    | classEntry key' =>
      obtain rfl : key' = key := howner
      simp [putAt, namesAt]
    | field => simp [putAt, namesAt]
    | method => simp [putAt, namesAt]
    | parameter => simp [putAt, namesAt]
  | field owner key =>
    cases q with
    | classEntry => simp [putAt, namesAt]
    | field owner' key' =>
      obtain rfl : owner' = owner := howner
      by_cases hkey : key' = key <;> simp [putAt, namesAt, OrderedMap.get?_insert, hkey]
    | method => simp [putAt, namesAt]
    | parameter => simp [putAt, namesAt]
  | method owner key =>
    cases q with
    | classEntry => simp [putAt, namesAt]
    | field => simp [putAt, namesAt]
    | method owner' key' =>
      obtain rfl : owner' = owner := howner
      by_cases hkey : key' = key <;> simp [putAt, namesAt, OrderedMap.get?_insert, hkey]
    | parameter owner' key' index =>
      -- the parameters of a method stay, and one that is put in has none
      by_cases hkey : key' = key
      · subst hkey
        cases h : c.methods.get? key' with
        | none => simp [putAt, namesAt, OrderedMap.get?_insert, h, OrderedMap.get?_emptyCollection]
        | some m => simp [putAt, namesAt, OrderedMap.get?_insert, h]
      · simp [putAt, namesAt, OrderedMap.get?_insert, hkey]
  | parameter => exact absurd rfl hp

end ClassEntry

/-- `namesAt` a place of a table are those in the class around it. -/
theorem Table.namesAt_eq_bind (t : Table) (q : Place) :
    t.namesAt q = (t.classes.get? q.owner).bind (·.namesAt q) := by
  cases q with
  | classEntry key =>
    cases h : t.classes.get? key <;> simp [namesAt, Place.owner, ClassEntry.namesAt, h]
  | field owner key =>
    cases h : t.classes.get? owner <;>
      simp [namesAt, field?, entryOf, Place.owner, ClassEntry.namesAt, h]
  | method owner key =>
    cases h : t.classes.get? owner <;>
      simp [namesAt, method?, entryOf, Place.owner, ClassEntry.namesAt, h]
  | parameter owner key index =>
    cases h : t.classes.get? owner <;>
      simp [namesAt, parameter?, method?, entryOf, Place.owner, ClassEntry.namesAt, h,
        Option.bind_map]

namespace Format.Plain

/-- The table with `names` put at a place. A class that is not there is put there as an owner. -/
def putAt (t : Table) (names : Names) (p : Place) : Table :=
  { t with classes := t.classes.insert p.owner ((owner t p.owner).putAt names p) }

section PutAt

variable {t : Table} {names : Names} {p : Place}

/-- The names of an `owner` are those of the class, or those that it has as an owner if it is not
there. -/
theorem names_owner (t : Table) (key : String) :
    (owner t key).names = (t.namesAt (.classEntry key)).getD
      (Names.ofFirst key t.namespaces.size) := by
  rw [owner, Table.namesAt]
  cases t.classes.get? key <;> rfl

/-- The fields of an `owner` are those of the class, which are none if it is not there. -/
theorem field?_eq_get? (t : Table) (key : String) (member : MemberKey) :
    t.field? key member = (owner t key).fields.get? member := by
  rw [owner, Table.field?]
  cases t.classes.get? key <;> rfl

/-- The methods of an `owner` are those of the class, which are none if it is not there. -/
theorem method?_eq_get? (t : Table) (key : String) (member : MemberKey) :
    t.method? key member = (owner t key).methods.get? member := by
  rw [owner, Table.method?]
  cases t.classes.get? key <;> rfl

/-- In the `owner` around a place stands what stands there in the table, and its own names. -/
theorem namesAt_owner (t : Table) (q : Place) :
    (owner t q.owner).namesAt q =
      if q = .classEntry q.owner then some (owner t q.owner).names else t.namesAt q := by
  rw [Table.namesAt_eq_bind, owner]
  cases h : t.classes.get? q.owner with
  | none => cases q <;> simp [ClassEntry.namesAt, Place.owner, OrderedMap.get?_emptyCollection]
  | some c => cases q <;> simp [ClassEntry.namesAt, Place.owner]

/-- What stands at the places after `putAt` put names at one of them: these names there, and the
names of the class around it, if it was not there before. -/
theorem namesAt_putAt (hp : p.keyName? ≠ none) (q : Place) :
    (putAt t names p).namesAt q =
      if q = p then some names
      else if q = .classEntry p.owner then some (owner t p.owner).names else t.namesAt q := by
  rw [Table.namesAt_eq_bind, putAt, OrderedMap.get?_insert]
  by_cases howner : q.owner = p.owner
  · rw [if_pos howner, Option.bind_some, ClassEntry.namesAt_putAt hp howner, ← howner,
      namesAt_owner]
  · have hne : q ≠ p := by
      rintro rfl
      exact howner rfl
    have hne' : q ≠ .classEntry p.owner := by
      rintro rfl
      exact howner rfl
    rw [if_neg howner, if_neg hne, if_neg hne', ← Table.namesAt_eq_bind]

end PutAt

/-! ## Reading a row -/

/-- Whether a `Row` can be put into a table: what has names already gets the same ones, or it is a
class that is known by its source name alone. -/
def Accepts (t : Table) : Row → Prop
  | .blank => True
  | .entry p names =>
    ∀ old ∈ t.namesAt p, old = names ∨ (p.isClassEntry = true ∧ old.isSourceOnly = true)

/-- The table with a `Row` put in, by `putAt`. -/
def put (t : Table) : Row → Table
  | .blank => t
  | .entry p names => putAt t names p

section ReadLine

variable {t t' : Table} {c c' : ClassEntry} {names : Names} {key : String}

/-- A table `Accepts` what is not a class if the names that are there already, if any, are the
same. -/
theorem accepts_entry_iff {α : Type} {p : Place} {a? : Option α} {namesOf : α → Names}
    (hp : p.isClassEntry = false) (hnames : t.namesAt p = a?.map namesOf) :
    Accepts t (.entry p names) ↔ ∀ a ∈ a?, namesOf a = names := by
  simp [Accepts, hnames, hp]

/-- When `addMember` puts a member in: it has a source name, and nothing else is said of it already.
`added` is the class that `add` makes with a new one under a key. -/
theorem addMember_eq_ok_iff {α : Type} {kind : EntryKind} {key : α → Except Failure MemberKey}
    {row : α → String × Names} {members : OrderedMap MemberKey α}
    {add : ClassEntry → α → Except Failure ClassEntry} {a : α} {descriptor : String}
    (added : MemberKey → ClassEntry)
    (hkey : ∀ k, key a = .ok k ↔ names.source = some k.name ∧ descriptor = k.descriptor)
    (hnew : ∀ k, key a = .ok k → members.get? k = none → add c a = .ok (added k))
    (hsame : ∀ k old, members.get? k = some old → row old = row a → added k = c) :
    addMember kind key row members add c a = .ok c' ↔
      ∃ name, names.source = some name ∧
        (∀ old ∈ members.get? { name, descriptor }, row old = row a) ∧
        added { name, descriptor } = c' := by
  constructor
  · intro h
    obtain ⟨k, hk, h⟩ := bind_eq_ok_iff.1 h
    obtain ⟨hsource, rfl⟩ := (hkey k).1 hk
    refine ⟨k.name, hsource, ?_⟩
    -- a key that is taken is accepted again with the same row only
    split at h
    · next old hold =>
      split at h
      · next hrow =>
        cases h
        refine ⟨fun old' hold' => ?_, hsame k old hold hrow⟩
        rwa [Option.some.inj (hold'.symm.trans hold)]
      · exact absurd h fail_ne_ok
    · next hnone =>
      refine ⟨fun old' hold' => ?_, Except.ok.inj ((hnew k hk hnone).symm.trans h)⟩
      cases hnone.symm.trans hold'
  · rintro ⟨name, hsource, hrepeats, rfl⟩
    have hk := (hkey { name, descriptor }).2 ⟨hsource, rfl⟩
    refine bind_eq_ok_iff.2 ⟨_, hk, ?_⟩
    split
    · next old hold => rw [if_pos (hrepeats old hold), hsame _ old hold (hrepeats old hold)]; rfl
    · next hnone => exact hnew _ hk hnone

/-- `addClass` puts in a class if it is known by its source name at most, or has these names
already. -/
theorem addClass_eq_ok_iff (hsource : names.source = some key)
    (hsize : names.size = t.namespaces.size) :
    addClass t names = .ok t' ↔
      Accepts t (.entry (.classEntry key) names) ∧ putAt t names (.classEntry key) = t' := by
  rw [addClass, Names.requireSource_eq_ok_iff.2 hsource, ok_bind]
  cases h : t.classes.get? key with
  | none =>
    have haccepts : Accepts t (.entry (.classEntry key) names) := by
      simp [Accepts, Table.namesAt, h]
    simp [haccepts, Table.addClass, Names.requireSource_eq_ok_iff.2 hsource, Table.insertClass,
      Table.checkSlots, hsize, OrderedMap.insertNew_of_get?_eq_none h, putAt, Place.owner, owner,
      ClassEntry.putAt, h]
  | some old =>
    have haccepts : Accepts t (.entry (.classEntry key) names) ↔
        old.names = names ∨ old.names.isSourceOnly = true := by
      simp [Accepts, Table.namesAt, h, Place.isClassEntry]
    have hput : putAt t names (.classEntry key) =
        { t with classes := t.classes.insert key { old with names } } := by
      simp [putAt, Place.owner, owner, h, ClassEntry.putAt]
    rw [haccepts, hput]
    -- the test for a bare class comes first, also if it has the same names
    by_cases honly : old.names.isSourceOnly = true
    · simp [honly]
    · by_cases hnames : old.names = names
      · subst hnames
        simp [honly, OrderedMap.insert_of_get? h]
      · simp [honly, hnames]

/-- `readMember` puts the row of a member into the table, if `add` puts in members of its kind like
that. -/
theorem readMember_eq_ok_iff {line : Line} (place : String → MemberKey → Place)
    {add : ClassEntry → String → Names → Except Failure ClassEntry}
    (howner : ∀ key member, (place key member).owner = key)
    (hadd : ∀ key descriptor names c', add (owner t key) descriptor names = .ok c' ↔
      ∃ name, names.source = some name ∧ Accepts t (.entry (place key { name, descriptor }) names) ∧
        (owner t key).putAt names (place key { name, descriptor }) = c') :
    readMember add t line = .ok t' ↔
      ∃ row, Row.ofMember? place t.namespaces.size line = some row ∧ Accepts t row ∧
        put t row = t' := by
  constructor
  · intro h
    -- the first two columns are the owner and the descriptor, the others are the names
    obtain ⟨key, rest, descriptor, rest', names, c, hkey, hdescriptor, hnames, hc, rfl⟩ :=
      readMember_eq_ok h
    obtain ⟨name, hname, haccepts, rfl⟩ := (hadd key descriptor names c).1 hc
    refine ⟨_, ?_, haccepts, ?_⟩
    · simp [Row.ofMember?, hkey, hdescriptor, hnames, hname, Except.toOption]
    · rw [put, putAt, howner]
  · rintro ⟨row, hrow, haccepts, rfl⟩
    obtain ⟨⟨key, rest⟩, hkey, hrow⟩ := Option.bind_eq_some_iff.1 hrow
    obtain ⟨⟨descriptor, rest'⟩, hdescriptor, hrow⟩ := Option.bind_eq_some_iff.1 hrow
    obtain ⟨names, hnames, hrow⟩ := Option.bind_eq_some_iff.1 hrow
    obtain ⟨name, hname, hrow⟩ := Option.bind_eq_some_iff.1 hrow
    obtain rfl := Option.some.inj hrow
    rw [toOption_eq_some_iff] at hkey hdescriptor hnames
    have hc := (hadd key descriptor names _).2 ⟨name, hname, haccepts, rfl⟩
    refine bind_eq_ok_iff.2 ⟨_, hkey, bind_eq_ok_iff.2 ⟨_, hdescriptor, bind_eq_ok_iff.2
      ⟨_, hnames, bind_eq_ok_iff.2 ⟨_, within_eq_ok_iff.2 hc, ?_⟩⟩⟩⟩
    rw [put, putAt, howner]
    rfl

/-- The line of a class has its row `put` into the table. -/
theorem readClass_eq_ok_iff {line : Line} :
    (do
      let names ← line.names t.namespaces.size false
      within (.inLine line.number) (addClass t names)) = .ok t' ↔
      ∃ row, Row.ofClass? t.namespaces.size line = some row ∧ Accepts t row ∧ put t row = t' := by
  constructor
  · intro h
    obtain ⟨names, hnames, h⟩ := bind_eq_ok_iff.1 h
    have h := within_eq_ok_iff.1 h
    -- the row is known by the source name of the class
    obtain ⟨key, hkey, -⟩ := bind_eq_ok_iff.1 h
    rw [Names.requireSource_eq_ok_iff] at hkey
    refine ⟨_, ?_, (addClass_eq_ok_iff hkey (size_of_names hnames)).1 h⟩
    simp [Row.ofClass?, hnames, hkey, Except.toOption]
  · rintro ⟨row, hrow, haccepts, rfl⟩
    obtain ⟨names, hnames, hrow⟩ := Option.bind_eq_some_iff.1 hrow
    obtain ⟨key, hkey, hrow⟩ := Option.bind_eq_some_iff.1 hrow
    obtain rfl := Option.some.inj hrow
    rw [toOption_eq_some_iff] at hnames
    exact bind_eq_ok_iff.2 ⟨names, hnames, within_eq_ok_iff.2
      ((addClass_eq_ok_iff hkey (size_of_names hnames)).2 ⟨haccepts, rfl⟩)⟩

/-- `readLine` puts the row of a line into the table with `put`, if the table `Accepts` it. -/
theorem readLine_eq_ok_iff {line : Line} (ht : t.KeysAgree) :
    readLine t line = .ok t' ↔
      ∃ row, Row.ofLine? t.namespaces.size line = some row ∧ Accepts t row ∧ put t row = t' := by
  unfold readLine
  split
  · next hhead =>
    rw [Row.ofLine?, if_pos hhead]
    exact readClass_eq_ok_iff
  · next hhead =>
    rw [Row.ofLine?, if_neg (by simp [hhead]), if_pos hhead]
    refine readMember_eq_ok_iff .field (fun _ _ => rfl) fun key descriptor names c' => ?_
    -- the descriptor is part of the key, so a repeated row has the same one
    have hold : ∀ member, ∀ old ∈ (owner t key).fields.get? member,
        old.descriptor = member.descriptor := fun member old hold =>
      (ht.field? ((field?_eq_get? ..).trans hold)).descriptor_eq
    rw [addField, addMember_eq_ok_iff (fun k => (owner t key).putAt names (.field key k))
      fun k => Field.key_eq_ok_iff]
    · refine exists_congr fun name => and_congr_right fun _ => and_congr_left fun _ => ?_
      rw [accepts_entry_iff (p := .field key { name, descriptor }) rfl
        (congrArg (Option.map Field.names) (field?_eq_get? t key _))]
      exact forall₂_congr fun old hget => by simp [hold _ old hget]
    · intro k hk hnone
      obtain ⟨-, rfl⟩ := Field.key_eq_ok_iff.1 hk
      rw [ClassEntry.addField_of_new hk hnone, ClassEntry.putAt, hnone]
      rfl
    · intro k old hget hrow
      obtain ⟨-, rfl⟩ := Prod.mk.inj hrow
      rw [ClassEntry.putAt, hget, Option.getD_some, OrderedMap.insert_of_get? hget]
  · next hhead =>
    rw [Row.ofLine?, if_neg (by simp [hhead]), if_neg (by simp [hhead]), if_pos hhead]
    refine readMember_eq_ok_iff .method (fun _ _ => rfl) fun key descriptor names c' => ?_
    have hold : ∀ member, ∀ old ∈ (owner t key).methods.get? member,
        old.descriptor = member.descriptor := fun member old hold =>
      (ht.method? ((method?_eq_get? ..).trans hold)).descriptor_eq
    rw [addMethod, addMember_eq_ok_iff (fun k => (owner t key).putAt names (.method key k))
      fun k => Method.key_eq_ok_iff]
    · refine exists_congr fun name => and_congr_right fun _ => and_congr_left fun _ => ?_
      rw [accepts_entry_iff (p := .method key { name, descriptor }) rfl
        (congrArg (Option.map Method.names) (method?_eq_get? t key _))]
      exact forall₂_congr fun old hget => by simp [hold _ old hget]
    · intro k hk hnone
      obtain ⟨-, rfl⟩ := Method.key_eq_ok_iff.1 hk
      rw [ClassEntry.addMethod_of_new hk hnone, ClassEntry.putAt, hnone]
      rfl
    · intro k old hget hrow
      obtain ⟨-, rfl⟩ := Prod.mk.inj hrow
      rw [ClassEntry.putAt, hget, Option.getD_some, OrderedMap.insert_of_get? hget]
  · next hclass hfield hmethod =>
    rw [Row.ofLine?, if_neg hclass, if_neg hfield, if_neg hmethod]
    split <;> simp [Accepts, put, within_eq_ok_iff]

end ReadLine

end Format.Plain

end MappingTables
