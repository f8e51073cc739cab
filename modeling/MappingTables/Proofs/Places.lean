import MappingTables.Merge
import MappingTables.Proofs.MapNames
import MappingTables.Proofs.Switch

/-!
# What stands where in a table

An entry of a table is found by the keys on the way to it. Seen like that, a table says for each
place what stands there, and the four kinds of entries need not be told apart.

* `Place`: where an entry can stand.
* `Table.namesAt`, `Table.nameAt`, `Table.commentAt`: what stands there.
* `Table.Obeys.at`, `Table.Obeys.of_at`: what is asked of all entries is asked at every place.
* `Table.IsWellKeyed`: every class, field and method with a source name is keyed by it.
* `Table.namesAt_mapNames`: the names at a place after changing all names.
* `Table.places`, `Table.nodup_places`: the places of all entries in their order, none of them
  twice.
-/

namespace MappingTables

/-- Where an entry can stand in a table, by the keys of the entries around it and its own. -/
inductive Place where
  | classEntry (key : String)
  | field (owner : String) (key : MemberKey)
  | method (owner : String) (key : MemberKey)
  | parameter (owner : String) (key : MemberKey) (index : UInt64)

namespace Place

/-- The name in the key of the entry at a `Place`. Parameters have none. -/
def keyName? : Place → Option String
  | classEntry key => some key
  | field _ key => some key.name
  | method _ key => some key.name
  | parameter _ _ _ => none

/-- The key of the class around the entry at a `Place`, or of the class itself. -/
def owner : Place → String
  | classEntry key => key
  | field owner _ => owner
  | method owner _ => owner
  | parameter owner _ _ => owner

/-- The key of the method around the entry at a `Place`, or of the method itself. -/
def methodKey? : Place → Option MemberKey
  | method _ key => some key
  | parameter _ key _ => some key
  | _ => none

/-- The descriptor in the key of the entry at a `Place`. Only members have one. -/
def descriptor? : Place → Option String
  | field _ key => some key.descriptor
  | method _ key => some key.descriptor
  | _ => none

end Place

/-- What rules ask of the `names` at a place, and of the place itself. -/
structure EntryRules.At (r : EntryRules) (p : Place) (names : Names) : Prop where
  keyed : ∀ key ∈ p.keyName?, r.keyed key names
  descriptor : ∀ descriptor ∈ p.descriptor?, r.descriptor descriptor
  parameter : p.keyName? = none → r.parameter names

namespace Table

/-- The field with a `key`, in the class with a key. -/
def field? (t : Table) (owner : String) (key : MemberKey) : Option Field :=
  entryOf ((t.classes.get? owner).map (·.fields)) key

/-- The method with a `key`, in the class with a key. -/
def method? (t : Table) (owner : String) (key : MemberKey) : Option Method :=
  entryOf ((t.classes.get? owner).map (·.methods)) key

/-- The parameter with an `index`, in the method with a `key`. -/
def parameter? (t : Table) (owner : String) (key : MemberKey) (index : UInt64) : Option Parameter :=
  entryOf ((t.method? owner key).map (·.parameters)) index

/-- The names of the entry at a `Place`, if there is one. -/
def namesAt (t : Table) : Place → Option Names
  | .classEntry key => (t.classes.get? key).map (·.names)
  | .field owner key => (t.field? owner key).map (·.names)
  | .method owner key => (t.method? owner key).map (·.names)
  | .parameter owner key index => (t.parameter? owner key index).map (·.names)

/-- The comment of the entry at a `Place`, if there is an entry and it has one. -/
def commentAt (t : Table) : Place → Option String
  | .classEntry key => (t.classes.get? key).bind (·.comment)
  | .field owner key => (t.field? owner key).bind (·.comment)
  | .method owner key => (t.method? owner key).bind (·.comment)
  | .parameter owner key index => (t.parameter? owner key index).bind (·.comment)

/-- The name of the entry at a place in the namespace with a `label`. -/
def nameAt (t : Table) (label : String) (p : Place) : Option String :=
  (t.namesAt p).bind (t.namespaces.nameIn label)

variable {t : Table} {p : Place} {names : Names}

/-- Where no entry stands, `commentAt` finds no comment. -/
theorem commentAt_of_namesAt_eq_none (h : t.namesAt p = none) : t.commentAt p = none := by
  cases p <;> rw [commentAt, Option.map_eq_none_iff.1 h, Option.bind_none]

/-- Where no entry stands, `nameAt` finds no name. -/
theorem nameAt_of_namesAt_eq_none {label : String} (h : t.namesAt p = none) :
    t.nameAt label p = none := by
  rw [nameAt, h, Option.bind_none]

/-- `nameAt` finds no name in a namespace that a table does not have. -/
theorem nameAt_of_not_mem {label : String} (h : label ∉ t.namespaces.labels) (p : Place) :
    t.nameAt label p = none := by
  have hnone : t.namespaces.labels.idxOf? label = none := List.idxOf?_eq_none_iff.2 h
  simp [nameAt, Namespaces.nameIn, hnone]

/-! ## Entries one by one -/

/-- What `entryOf` finds in a map that belongs to something is an entry of that map. -/
theorem mem_entryOf_map_iff {κ α β : Type} [DecidableEq κ] {f : β → OrderedMap κ α} {b : Option β}
    {k : κ} {a : α} : a ∈ entryOf (b.map f) k ↔ ∃ b' ∈ b, (k, a) ∈ (f b').entries := by
  cases b with
  | none => simp [entryOf]
  | some b => simp [entryOf, OrderedMap.get?_eq_some_iff]

section Obeys

variable {r : EntryRules} (h : t.Obeys r) {owner : String} {key : MemberKey} {index : UInt64}

include h

/-- Every `field?` of a table follows the rules that the table `Obeys`. -/
theorem Obeys.field? {f : Field} (hf : f ∈ t.field? owner key) : f.Obeys r key := by
  obtain ⟨c, hc, hf⟩ := mem_entryOf_map_iff.1 hf
  exact (h _ (OrderedMap.get?_eq_some_iff.1 hc)).fields _ hf

/-- Every `method?` of a table follows the rules that the table `Obeys`. -/
theorem Obeys.method? {m : Method} (hm : m ∈ t.method? owner key) : m.Obeys r key := by
  obtain ⟨c, hc, hm⟩ := mem_entryOf_map_iff.1 hm
  exact (h _ (OrderedMap.get?_eq_some_iff.1 hc)).methods _ hm

/-- Every `parameter?` of a table follows the rules that the table `Obeys`. -/
theorem Obeys.parameter? {parameter : Parameter} (hp : parameter ∈ t.parameter? owner key index) :
    parameter.Obeys r index := by
  obtain ⟨m, hm, hp⟩ := mem_entryOf_map_iff.1 hp
  exact (h.method? hm).parameters _ hp

/-- What a table `Obeys` holds of `namesAt` every place. -/
theorem Obeys.at (hnames : names ∈ t.namesAt p) : r.At p names := by
  cases p with
  | classEntry key =>
    obtain ⟨c, hc, rfl⟩ := Option.map_eq_some_iff.1 hnames
    have hc := h _ (OrderedMap.get?_eq_some_iff.1 hc)
    exact ⟨fun _ hkey => Option.some.inj hkey ▸ hc.names, nofun, nofun⟩
  | field owner key =>
    obtain ⟨f, hf, rfl⟩ := Option.map_eq_some_iff.1 hnames
    have hf := h.field? hf
    exact ⟨fun _ hkey => Option.some.inj hkey ▸ hf.names,
      fun _ hdescriptor => Option.some.inj hdescriptor ▸ hf.descriptor, nofun⟩
  | method owner key =>
    obtain ⟨m, hm, rfl⟩ := Option.map_eq_some_iff.1 hnames
    have hm := h.method? hm
    exact ⟨fun _ hkey => Option.some.inj hkey ▸ hm.names,
      fun _ hdescriptor => Option.some.inj hdescriptor ▸ hm.descriptor, nofun⟩
  | parameter owner key index =>
    obtain ⟨parameter, hp, rfl⟩ := Option.map_eq_some_iff.1 hnames
    exact ⟨nofun, nofun, fun _ => (h.parameter? hp).names⟩

end Obeys

section Converse

variable {owner : String} {key : MemberKey} {index : UInt64} {c : ClassEntry} {f : Field}
    {m : Method}
  {parameter : Parameter}

theorem namesAt_classEntry (hc : (owner, c) ∈ t.classes.entries) :
    t.namesAt (.classEntry owner) = some c.names := by
  rw [namesAt, OrderedMap.get?_eq_some_iff.2 hc, Option.map_some]

theorem namesAt_field (hc : (owner, c) ∈ t.classes.entries) (hf : (key, f) ∈ c.fields.entries) :
    t.namesAt (.field owner key) = some f.names := by
  have hfield : t.field? owner key = some f :=
    mem_entryOf_map_iff.2 ⟨c, OrderedMap.get?_eq_some_iff.2 hc, hf⟩
  rw [namesAt, hfield, Option.map_some]

theorem namesAt_method (hc : (owner, c) ∈ t.classes.entries) (hm : (key, m) ∈ c.methods.entries) :
    t.method? owner key = some m ∧ t.namesAt (.method owner key) = some m.names := by
  have hmethod : t.method? owner key = some m :=
    mem_entryOf_map_iff.2 ⟨c, OrderedMap.get?_eq_some_iff.2 hc, hm⟩
  exact ⟨hmethod, by rw [namesAt, hmethod, Option.map_some]⟩

theorem namesAt_parameter (hm : t.method? owner key = some m)
    (hp : (index, parameter) ∈ m.parameters.entries) :
    t.namesAt (.parameter owner key index) = some parameter.names := by
  have hparameter : t.parameter? owner key index = some parameter :=
    mem_entryOf_map_iff.2 ⟨m, hm, hp⟩
  rw [namesAt, hparameter, Option.map_some]

/-- A table `Obeys` rules if they hold of `namesAt` every place, as long as it follows some rules at
all, so that descriptors and indices are those of the keys. -/
theorem Obeys.of_at {r r' : EntryRules} (h : t.Obeys r')
    (hat : ∀ p, ∀ names ∈ t.namesAt p, r.At p names) : t.Obeys r := by
  rintro ⟨owner, c⟩ hc
  have hclass := h _ hc
  refine ⟨(hat _ _ (namesAt_classEntry hc)).keyed owner rfl, ?_, ?_⟩
  · rintro ⟨key, f⟩ hf
    have hnames := hat _ _ (namesAt_field hc hf)
    exact ⟨(hclass.fields _ hf).descriptor_eq, hnames.keyed key.name rfl,
      hnames.descriptor key.descriptor rfl⟩
  · rintro ⟨key, m⟩ hm
    have hmethod := hclass.methods _ hm
    have hnames := hat _ _ (namesAt_method hc hm).2
    refine ⟨hmethod.descriptor_eq, hnames.keyed key.name rfl,
      hnames.descriptor key.descriptor rfl, ?_⟩
    rintro ⟨index, parameter⟩ hp
    have hparameter := hat _ _ (namesAt_parameter (namesAt_method hc hm).1 hp)
    exact ⟨(hmethod.parameters _ hp).index_eq, hparameter.parameter rfl⟩

end Converse

/-- An entry of a table that `IsAligned` has a slot for each namespace. -/
theorem IsAligned.size_eq (h : t.IsAligned) (hnames : names ∈ t.namesAt p) :
    names.size = t.namespaces.size := by
  have hat := Obeys.at h hnames
  cases hkey : p.keyName? with
  | none => exact hat.parameter hkey
  | some key => exact (hat.keyed key hkey).1

/-- `nameAt` finds a source name, in a table that `IsAligned`, that is the one in the key. -/
theorem IsAligned.nameAt_source (h : t.IsAligned) {key name : String} (hkey : key ∈ p.keyName?)
    (hname : t.nameAt t.namespaces.source p = some name) : name = key := by
  obtain ⟨names, hnames, hname⟩ := Option.bind_eq_some_iff.1 hname
  rw [Namespaces.nameIn_eq_get t.namespaces.getElem?_zero] at hname
  exact ((Obeys.at h hnames).keyed key hkey).2 name hname

/-- Whether every class, field and method of a table that has a name in the source namespace, by
`nameAt`, is keyed by that name. -/
def IsWellKeyed (t : Table) : Prop :=
  ∀ p : Place, ∀ key ∈ p.keyName?, ∀ name ∈ t.nameAt t.namespaces.source p, name = key

/-- A table that `IsAligned` also `IsWellKeyed`. -/
theorem IsAligned.isWellKeyed (h : t.IsAligned) : t.IsWellKeyed :=
  fun _ _ hkey _ hname => h.nameAt_source hkey hname

/-! ## Changing all names -/

section MapNames

variable (f : Names → Names)

theorem field?_mapNames (t : Table) (owner : String) (key : MemberKey) :
    (t.mapNames f).field? owner key = (t.field? owner key).map (Field.mapNames f) := by
  rw [field?, field?, mapNames, OrderedMap.get?_map]
  cases t.classes.get? owner with
  | none => rfl
  | some c => exact OrderedMap.get?_map (Field.mapNames f) c.fields key

theorem method?_mapNames (t : Table) (owner : String) (key : MemberKey) :
    (t.mapNames f).method? owner key = (t.method? owner key).map (Method.mapNames f) := by
  rw [Table.method?, Table.method?, mapNames, OrderedMap.get?_map]
  cases t.classes.get? owner with
  | none => rfl
  | some c => exact OrderedMap.get?_map (Method.mapNames f) c.methods key

theorem parameter?_mapNames (t : Table) (owner : String) (key : MemberKey) (index : UInt64) :
    (t.mapNames f).parameter? owner key index =
      (t.parameter? owner key index).map (Parameter.mapNames f) := by
  rw [parameter?, parameter?, method?_mapNames]
  cases t.method? owner key with
  | none => rfl
  | some m => exact OrderedMap.get?_map (Parameter.mapNames f) m.parameters index

/-- `namesAt` a place after `mapNames` are those that `f` makes of the ones before. -/
theorem namesAt_mapNames (t : Table) (p : Place) :
    (t.mapNames f).namesAt p = (t.namesAt p).map f := by
  cases p with
  | classEntry key =>
    rw [namesAt, namesAt, mapNames, OrderedMap.get?_map, Option.map_map, Option.map_map]
    rfl
  | field owner key =>
    rw [namesAt, namesAt, field?_mapNames, Option.map_map, Option.map_map]
    rfl
  | method owner key =>
    rw [namesAt, namesAt, method?_mapNames, Option.map_map, Option.map_map]
    rfl
  | parameter owner key index =>
    rw [namesAt, namesAt, parameter?_mapNames, Option.map_map, Option.map_map]
    rfl

/-- `commentAt` a place is the same after `mapNames`. -/
theorem commentAt_mapNames (t : Table) (p : Place) :
    (t.mapNames f).commentAt p = t.commentAt p := by
  cases p with
  | classEntry key =>
    rw [commentAt, commentAt, mapNames, OrderedMap.get?_map, Option.bind_map]
    rfl
  | field owner key =>
    rw [commentAt, commentAt, field?_mapNames, Option.bind_map]
    rfl
  | method owner key =>
    rw [commentAt, commentAt, method?_mapNames, Option.bind_map]
    rfl
  | parameter owner key index =>
    rw [commentAt, commentAt, parameter?_mapNames, Option.bind_map]
    rfl

/-- `mapNames` leaves the order of entries alone: a table that `IsAscending` stays so. -/
theorem IsAscending.mapNames (h : t.IsAscending) : (t.mapNames f).IsAscending := by
  refine ⟨(OrderedMap.keys_map _ t.classes).symm ▸ h.classes, ?_⟩
  rintro ⟨key, c⟩ he
  obtain ⟨c, hc, rfl⟩ := OrderedMap.mem_entries_map.1 he
  have hmembers := h.members _ hc
  refine ⟨(OrderedMap.keys_map _ c.fields).symm ▸ hmembers.fields,
    (OrderedMap.keys_map _ c.methods).symm ▸ hmembers.methods, ?_⟩
  rintro ⟨key, _⟩ he
  obtain ⟨m, hm, rfl⟩ := OrderedMap.mem_entries_map.1 he
  exact (OrderedMap.keys_map _ m.parameters).symm ▸ hmembers.parameters (key, m) hm

end MapNames

end Table

/-! ## All places -/

/-- The places of a method, which is under a `key` in the class of an `owner`, and its
parameters. -/
def Method.places (owner : String) (key : MemberKey) (m : Method) : List Place :=
  .method owner key :: m.parameters.keys.map (.parameter owner key)

/-- The places of a class with the key `owner` and all in it. -/
def ClassEntry.places (owner : String) (c : ClassEntry) : List Place :=
  .classEntry owner :: (c.fields.keys.map (.field owner) ++
    c.methods.entries.flatMap fun e => e.2.places owner e.1)

/-- The places of all entries, those of each class by `ClassEntry.places`, in the order of the
table. -/
def Table.places (t : Table) : List Place :=
  t.classes.entries.flatMap fun e => e.2.places e.1

section Mem

variable {owner : String} {key : MemberKey} {m : Method} {c : ClassEntry} {p : Place}

theorem Method.mem_places_iff : p ∈ m.places owner key ↔
    p = .method owner key ∨ ∃ index ∈ m.parameters.keys, .parameter owner key index = p := by
  rw [places, List.mem_cons, List.mem_map]

theorem ClassEntry.mem_places_iff : p ∈ c.places owner ↔
    p = .classEntry owner ∨ (∃ key ∈ c.fields.keys, .field owner key = p) ∨
      ∃ e ∈ c.methods.entries, p ∈ e.2.places owner e.1 := by
  rw [places, List.mem_cons, List.mem_append, List.mem_map, List.mem_flatMap]

/-- The `places` of a table are those where something stands. -/
theorem Table.mem_places_iff {t : Table} : p ∈ t.places ↔ (t.namesAt p).isSome := by
  rw [places, List.mem_flatMap]
  constructor
  · rintro ⟨⟨owner, c⟩, hc, hp⟩
    rcases ClassEntry.mem_places_iff.1 hp with rfl | ⟨key, hkey, rfl⟩ | ⟨⟨key, m⟩, hm, hp⟩
    · rw [namesAt_classEntry hc, Option.isSome_some]
    · obtain ⟨f, hf⟩ := OrderedMap.mem_keys_iff.1 hkey
      rw [namesAt_field hc hf, Option.isSome_some]
    · obtain ⟨hmethod, hnames⟩ := namesAt_method hc hm
      rcases Method.mem_places_iff.1 hp with rfl | ⟨index, hindex, rfl⟩
      · rw [hnames, Option.isSome_some]
      · obtain ⟨parameter, hparameter⟩ := OrderedMap.mem_keys_iff.1 hindex
        rw [namesAt_parameter hmethod hparameter, Option.isSome_some]
  · intro h
    -- what stands at a place has an entry at each level above it
    cases p with
    | classEntry key =>
      obtain ⟨c, hc⟩ := Option.isSome_iff_exists.1 (Option.isSome_map .. ▸ h)
      exact ⟨_, OrderedMap.get?_eq_some_iff.1 hc, ClassEntry.mem_places_iff.2 (.inl rfl)⟩
    | field owner key =>
      obtain ⟨f, hf⟩ := Option.isSome_iff_exists.1 (Option.isSome_map .. ▸ h)
      obtain ⟨c, hc, hf⟩ := mem_entryOf_map_iff.1 hf
      exact ⟨_, OrderedMap.get?_eq_some_iff.1 hc, ClassEntry.mem_places_iff.2
        (.inr (.inl ⟨key, OrderedMap.mem_keys_of_mem hf, rfl⟩))⟩
    | method owner key =>
      obtain ⟨m, hm⟩ := Option.isSome_iff_exists.1 (Option.isSome_map .. ▸ h)
      obtain ⟨c, hc, hm⟩ := mem_entryOf_map_iff.1 hm
      exact ⟨_, OrderedMap.get?_eq_some_iff.1 hc, ClassEntry.mem_places_iff.2
        (.inr (.inr ⟨_, hm, Method.mem_places_iff.2 (.inl rfl)⟩))⟩
    | parameter owner key index =>
      obtain ⟨parameter, hp⟩ := Option.isSome_iff_exists.1 (Option.isSome_map .. ▸ h)
      obtain ⟨m, hm, hp⟩ := mem_entryOf_map_iff.1 hp
      obtain ⟨c, hc, hm⟩ := mem_entryOf_map_iff.1 hm
      exact ⟨_, OrderedMap.get?_eq_some_iff.1 hc, ClassEntry.mem_places_iff.2
        (.inr (.inr ⟨_, hm, Method.mem_places_iff.2
          (.inr ⟨index, OrderedMap.mem_keys_of_mem hp, rfl⟩)⟩))⟩

end Mem

section Nodup

variable {owner : String} {key : MemberKey} {m : Method} {c : ClassEntry} {p : Place}

/-- One of the `places` of a method tells the keys of the class and of the method. -/
theorem Method.keys_of_mem_places (h : p ∈ m.places owner key) :
    p.owner = owner ∧ p.methodKey? = some key := by
  rw [Method.places, List.mem_cons, List.mem_map] at h
  rcases h with rfl | ⟨index, -, rfl⟩ <;> exact ⟨rfl, rfl⟩

theorem Method.nodup_places : (m.places owner key).Nodup := by
  refine List.nodup_cons.2 ⟨fun h => ?_, m.parameters.nodup_keys.map ?_⟩
  · obtain ⟨index, -, h⟩ := List.mem_map.1 h
    cases h
  · intro index index' h
    cases h
    rfl

/-- One of the `places` of a class tells the key of the class. -/
theorem ClassEntry.owner_of_mem_places (h : p ∈ c.places owner) : p.owner = owner := by
  rw [ClassEntry.places, List.mem_cons, List.mem_append, List.mem_map, List.mem_flatMap] at h
  rcases h with rfl | ⟨key, -, rfl⟩ | ⟨e, -, h⟩
  · rfl
  · rfl
  · exact (Method.keys_of_mem_places h).1

theorem ClassEntry.nodup_places : (c.places owner).Nodup := by
  -- fields and methods are told apart by having a method key or not
  have hmethods : ∀ p ∈ c.methods.entries.flatMap (fun e => e.2.places owner e.1),
      p.methodKey? ≠ none := by
    intro p hp
    obtain ⟨e, -, h⟩ := List.mem_flatMap.1 hp
    rw [(Method.keys_of_mem_places h).2]
    exact Option.some_ne_none _
  refine List.nodup_cons.2 ⟨fun h => ?_, List.nodup_append.2 ⟨c.fields.nodup_keys.map ?_,
    OrderedMap.nodup_flatMap (fun e _ => Method.nodup_places) fun e e' p hp hp' => ?_, ?_⟩⟩
  · rcases List.mem_append.1 h with h | h
    · obtain ⟨key, -, h⟩ := List.mem_map.1 h
      cases h
    · exact hmethods _ h rfl
  · intro key key' h
    cases h
    rfl
  · have hkey := (Method.keys_of_mem_places hp).2
    rw [(Method.keys_of_mem_places hp').2] at hkey
    exact (Option.some.inj hkey).symm
  · rintro p hp q hq rfl
    obtain ⟨key, -, rfl⟩ := List.mem_map.1 hp
    exact hmethods _ hq rfl

/-- None of the `places` of a table is listed twice, since keys are distinct at each level. -/
theorem Table.nodup_places (t : Table) : t.places.Nodup :=
  OrderedMap.nodup_flatMap (fun _ _ => ClassEntry.nodup_places) fun _ _ _ hp hp' =>
    (ClassEntry.owner_of_mem_places hp).symm.trans (ClassEntry.owner_of_mem_places hp')

end Nodup

end MappingTables
