import MappingTables.Proofs.Places

/-!
# The order of places

The entries of a table stand in an order, class by class: first the class itself, then its fields,
and then its methods, each with its parameters behind it.

* `Place.Before`: this order, with keys ascending at each level.
* `Table.IsAscending.pairwise_places`: the places of a table whose keys ascend are in that order.
* `Place.eq_of_pairwise`: there is only one way to put the same places into that order.
* `Table.Reordered.forall₂_places`: the entries of a reordered table stand where they stood.
-/

namespace MappingTables

namespace Place

/-- Which part of its class a `Place` belongs to: the class itself, its fields or its methods. -/
def part : Place → Nat
  | classEntry _ => 0
  | field _ _ => 1
  | method _ _ => 2
  | parameter _ _ _ => 2

/-- Whether one `Place` comes before another one. The keys of their classes decide, then the parts
of the class, then the keys of the members. A method comes before its parameters, and these are
ordered by their indices. -/
inductive Before : Place → Place → Prop where
  | owner {p q : Place} (h : textLe p.owner q.owner) (hne : p.owner ≠ q.owner) : Before p q
  | part {p q : Place} (howner : p.owner = q.owner) (h : p.part < q.part) : Before p q
  | field {owner : String} {key key' : MemberKey} (h : key.le key') (hne : key ≠ key') :
      Before (.field owner key) (.field owner key')
  | method {p q : Place} {key key' : MemberKey} (howner : p.owner = q.owner)
      (hp : p.methodKey? = some key) (hq : q.methodKey? = some key') (h : key.le key')
      (hne : key ≠ key') : Before p q
  | firstParameter {owner : String} {key : MemberKey} {index : UInt64} :
      Before (.method owner key) (.parameter owner key index)
  | parameter {owner : String} {key : MemberKey} {index index' : UInt64} (h : indexLe index index')
      (hne : index ≠ index') : Before (.parameter owner key index) (.parameter owner key index')

/-- A place in a method has the `part` of the methods of its class. -/
theorem part_of_methodKey? {p : Place} {key : MemberKey} (h : p.methodKey? = some key) :
    p.part = 2 := by
  cases p with
  | classEntry => cases h
  | field => cases h
  | method => rfl
  | parameter => rfl

namespace Before

variable {p q : Place}

/-- The `owner` of a place decides first whether it comes `Before` another one. -/
theorem owner_le (h : Before p q) : textLe p.owner q.owner := by
  have hrefl : ∀ {p q : Place}, p.owner = q.owner → textLe p.owner q.owner := by
    intro p q howner
    rw [howner]
    exact decide_eq_true (String.le_refl _)
  cases h with
  | owner h _ => exact h
  | part howner _ => exact hrefl howner
  | field => exact hrefl rfl
  | method howner _ _ _ _ => exact hrefl howner
  | firstParameter => exact hrefl rfl
  | parameter => exact hrefl rfl

/-- The `part` of a class decides after that. -/
theorem part_le (h : Before p q) (howner : p.owner = q.owner) : p.part ≤ q.part := by
  cases h with
  | owner _ hne => exact absurd howner hne
  | part _ h => exact Nat.le_of_lt h
  | field => exact Nat.le_refl _
  | method _ hp hq _ _ =>
    exact Nat.le_of_eq ((part_of_methodKey? hp).trans (part_of_methodKey? hq).symm)
  | firstParameter => exact Nat.le_refl _
  | parameter => exact Nat.le_refl _

/-- The `methodKey?` decides after that. -/
theorem methodKey_le {key key' : MemberKey} (h : Before p q) (howner : p.owner = q.owner)
    (hp : p.methodKey? = some key) (hq : q.methodKey? = some key') : key.le key' := by
  have hrefl : ∀ key : MemberKey, key.le key := fun key => by
    simpa using isKeyOrder_memberKey.total key key
  -- only an order within one method, or between two, concerns method keys
  cases h with
  | owner _ hne => exact absurd howner hne
  | part _ h =>
    rw [part_of_methodKey? hp, part_of_methodKey? hq] at h
    omega
  | field => cases hp
  | method _ hp' hq' h _ =>
    cases hp.symm.trans hp'
    cases hq.symm.trans hq'
    exact h
  | firstParameter =>
    cases hp.symm.trans hq
    exact hrefl key
  | parameter =>
    cases hp.symm.trans hq
    exact hrefl key

/-- Of two places, at most one comes `Before` the other one. -/
theorem asymm (h : Before p q) : ¬Before q p := by
  intro h'
  cases h with
  | owner h hne => exact hne (isKeyOrder_textLe.antisymm _ _ h h'.owner_le)
  | part howner h =>
    have hle := h'.part_le howner.symm
    omega
  | field h hne =>
    -- the classes and the parts are the same, so that only the keys are left to decide
    cases h' with
    | owner _ hne' => exact hne' rfl
    | part _ h' => exact Nat.lt_irrefl _ h'
    | field h' _ => exact hne (isKeyOrder_memberKey.antisymm _ _ h h')
    | method _ hp => cases hp
  | method howner hp hq h hne =>
    exact hne (isKeyOrder_memberKey.antisymm _ _ h (h'.methodKey_le howner.symm hq hp))
  | firstParameter =>
    cases h' with
    | owner _ hne' => exact hne' rfl
    | part _ h' => exact Nat.lt_irrefl _ h'
    | method _ hp hq _ hne => exact hne (Option.some.inj (hp.symm.trans hq))
  | parameter h hne =>
    cases h' with
    | owner _ hne' => exact hne' rfl
    | part _ h' => exact Nat.lt_irrefl _ h'
    | method _ hp hq _ hne => exact hne (Option.some.inj (hp.symm.trans hq))
    | parameter h' _ => exact hne (isKeyOrder_indexLe.antisymm _ _ h h')

end Before

end Place

/-! ## Places in ascending order -/

/-- Entries ascend with their `keys`, and no two of them have the same one. -/
theorem OrderedMap.pairwise_entries {κ α : Type} {le : κ → κ → Bool} {m : OrderedMap κ α}
    (h : m.keys.Pairwise (le · ·)) :
    m.entries.Pairwise fun e e' => le e.1 e'.1 = true ∧ e.1 ≠ e'.1 :=
  List.pairwise_map.1 (h.and m.nodup_keys)

section Ascending

variable {owner : String} {key : MemberKey}

/-- The `places` of a method are in order if its parameters are. -/
theorem Method.pairwise_places {m : Method} (h : m.parameters.keys.Pairwise (indexLe · ·)) :
    (m.places owner key).Pairwise Place.Before := by
  refine List.pairwise_cons.2 ⟨fun p hp => ?_, List.pairwise_map.2 ?_⟩
  · obtain ⟨index, -, rfl⟩ := List.mem_map.1 hp
    exact .firstParameter
  · exact (h.and m.parameters.nodup_keys).imp fun ⟨hle, hne⟩ => .parameter hle hne

/-- The `places` of a class are in order if all in it is. -/
theorem ClassEntry.IsAscending.pairwise_places {c : ClassEntry} (h : c.IsAscending) :
    (c.places owner).Pairwise Place.Before := by
  -- the part of the class that a place belongs to
  have hfield : ∀ p ∈ c.fields.keys.map (Place.field owner), p.owner = owner ∧ p.part = 1 := by
    intro p hp
    obtain ⟨key, -, rfl⟩ := List.mem_map.1 hp
    exact ⟨rfl, rfl⟩
  have hmethod : ∀ p ∈ c.methods.entries.flatMap (fun e => e.2.places owner e.1),
      p.owner = owner ∧ p.part = 2 := by
    intro p hp
    obtain ⟨e, -, hp⟩ := List.mem_flatMap.1 hp
    obtain ⟨howner, hkey⟩ := Method.keys_of_mem_places hp
    exact ⟨howner, Place.part_of_methodKey? hkey⟩
  refine List.pairwise_cons.2 ⟨fun p hp => ?_, List.pairwise_append.2 ⟨?_, ?_, ?_⟩⟩
  · rcases List.mem_append.1 hp with hp | hp
    · exact .part (hfield p hp).1.symm ((hfield p hp).2 ▸ Nat.zero_lt_one)
    · exact .part (hmethod p hp).1.symm ((hmethod p hp).2 ▸ Nat.zero_lt_two)
  · exact List.pairwise_map.2
      ((h.fields.and c.fields.nodup_keys).imp fun ⟨hle, hne⟩ => .field hle hne)
  · refine List.pairwise_flatMap.2 ⟨fun e he => Method.pairwise_places (h.parameters e he), ?_⟩
    refine (OrderedMap.pairwise_entries h.methods).imp fun {e e'} hkeys p hp q hq => ?_
    obtain ⟨howner, hkey⟩ := Method.keys_of_mem_places hp
    obtain ⟨howner', hkey'⟩ := Method.keys_of_mem_places hq
    exact .method (howner.trans howner'.symm) hkey hkey' hkeys.1 hkeys.2
  · intro p hp q hq
    refine .part ((hfield p hp).1.trans (hmethod q hq).1.symm) ?_
    rw [(hfield p hp).2, (hmethod q hq).2]
    exact Nat.one_lt_two

/-- The `places` of a table whose keys ascend are in order. -/
theorem Table.IsAscending.pairwise_places {t : Table} (h : t.IsAscending) :
    t.places.Pairwise Place.Before := by
  refine List.pairwise_flatMap.2 ⟨fun e he => (h.members e he).pairwise_places, ?_⟩
  refine (OrderedMap.pairwise_entries h.classes).imp fun {e e'} hkeys p hp q hq => ?_
  have howner := ClassEntry.owner_of_mem_places hp
  have howner' := ClassEntry.owner_of_mem_places hq
  exact .owner (howner ▸ howner' ▸ hkeys.1) (howner ▸ howner' ▸ hkeys.2)

end Ascending

/-- There is only one way to put some places into the order of `Before`. -/
theorem Place.eq_of_pairwise {l l' : List Place} (h : l.Pairwise Before) (h' : l'.Pairwise Before)
    (hmem : ∀ p, p ∈ l ↔ p ∈ l') : l = l' := by
  -- no place comes before itself, so that none is there twice
  have hnodup : ∀ {l : List Place}, l.Pairwise Before → l.Nodup := by
    intro l h
    refine h.imp ?_
    rintro p _ hp rfl
    exact hp.asymm hp
  refine ((List.perm_ext_iff_of_nodup (hnodup h) (hnodup h')).2 hmem).eq_of_pairwise ?_ h h'
  exact fun p q _ _ hpq hqp => absurd hqp hpq.asymm

/-! ## Places of reordered tables -/

/-- Whether two places are of the same kind, and so made by the same constructor of `Place`. Those
of parameters are to be of the same index. -/
inductive Place.SameKind : Place → Place → Prop where
  | classEntry (key key' : String) : SameKind (.classEntry key) (.classEntry key')
  | field (owner owner' : String) (key key' : MemberKey) :
      SameKind (.field owner key) (.field owner' key')
  | method (owner owner' : String) (key key' : MemberKey) :
      SameKind (.method owner key) (.method owner' key')
  | parameter (owner owner' : String) (key key' : MemberKey) (index : UInt64) :
      SameKind (.parameter owner key index) (.parameter owner' key' index)

/-- Whether the entry at a place `p` of one table `t` stands at another place `p'` of a second table
`t'`: an entry of the `SameKind`, with the same comment and the same names in all namespaces of the
second table. -/
structure Table.StandsAt (t t' : Table) (p p' : Place) : Prop where
  sameKind : p.SameKind p'
  names : ∀ label ∈ t'.namespaces.labels, t'.nameAt label p' = t.nameAt label p
  comment : t'.commentAt p' = t.commentAt p

/-- Two lists in a relation `R` are so with what is known of their items. -/
theorem forall₂_with_mem {α β : Type} {R : α → β → Prop} {l : List α} {l' : List β}
    (h : List.Forall₂ R l l') : List.Forall₂ (fun a b => a ∈ l ∧ b ∈ l' ∧ R a b) l l' := by
  have hright : List.Forall₂ (fun a b => b ∈ l' ∧ R a b) l l' :=
    ((List.forall₂_and_left ..).2 ⟨fun _ hb => hb, h.flip⟩).flip
  exact (List.forall₂_and_left ..).2 ⟨fun _ ha => ha, hright⟩

section Reordered

variable {t t' : Table} {r : Renaming} {positions : List Nat} {rules : EntryRules}
  (hpositions : t.namespaces.positions t'.namespaces.labels = .ok positions)

include hpositions

/-- An entry whose slots were taken by `pick` `StandsAt` its new place. -/
theorem Table.StandsAt.of_pick {p p' : Place} (names : Names) (hkind : p.SameKind p')
    (hnames : t.namesAt p = some names) (hnames' : t'.namesAt p' = some (names.pick positions))
    (hcomment : t'.commentAt p' = t.commentAt p) : t.StandsAt t' p p' where
  sameKind := hkind
  names label hlabel := by
    rw [nameAt, nameAt, hnames, hnames']
    exact Namespaces.nameIn_pick hpositions rfl hlabel names
  comment := hcomment

variable {owner owner' : String}

/-- After a method was `Reordered`, each of its places `StandsAt` one of the new method. -/
theorem Method.Reordered.forall₂_places {key key' : MemberKey} {m m' : Method}
    (h : m.Reordered r positions m') (hobeys : m.Obeys rules key)
    (hm : t.method? owner key = some m) (hm' : t'.method? owner' key' = some m') :
    List.Forall₂ (t.StandsAt t') (m.places owner key) (m'.places owner' key') := by
  refine .cons (.of_pick hpositions m.names (.method ..) ?_ ?_ ?_) ?_
  · rw [Table.namesAt, hm, Option.map_some]
  · rw [Table.namesAt, hm', Option.map_some, h.names]
  · rw [Table.commentAt, Table.commentAt, hm, hm']
    exact h.comment
  · rw [OrderedMap.keys, OrderedMap.keys, List.map_map, List.map_map]
    refine List.rel_map (R := fun e e' => e ∈ m.parameters.entries ∧ e' ∈ m'.parameters.entries ∧
      e' = (e.2.index, e.2.pick positions)) ?_ (forall₂_with_mem h.parameters)
    -- a parameter is put under its own index, which is the one that it stood under
    rintro ⟨index, p⟩ - ⟨hp, hp', rfl⟩
    obtain rfl : p.index = index := (hobeys.parameters _ hp).index_eq
    have hparameter : t.parameter? owner key p.index = some p :=
      Table.mem_entryOf_map_iff.2 ⟨m, hm, hp⟩
    have hparameter' : t'.parameter? owner' key' p.index = some (p.pick positions) :=
      Table.mem_entryOf_map_iff.2 ⟨m', hm', hp'⟩
    refine .of_pick hpositions p.names (.parameter ..) ?_ ?_ ?_
    · rw [Function.comp_apply, Table.namesAt, hparameter, Option.map_some]
    · rw [Function.comp_apply, Table.namesAt, hparameter', Option.map_some]
      rfl
    · rw [Function.comp_apply, Function.comp_apply, Table.commentAt, Table.commentAt, hparameter,
        hparameter']
      rfl

/-- After a class was `Reordered`, each of its places `StandsAt` one of the new class. -/
theorem ClassEntry.Reordered.forall₂_places {c c' : ClassEntry} (h : c.Reordered r positions c')
    (hobeys : c.Obeys rules owner) (hc : t.classes.get? owner = some c)
    (hc' : t'.classes.get? owner' = some c') :
    List.Forall₂ (t.StandsAt t') (c.places owner) (c'.places owner') := by
  -- a class comes before its fields, and these before its methods
  refine .cons (.of_pick hpositions c.names (.classEntry ..) ?_ ?_ ?_)
    (List.rel_append ?_ ?_)
  · rw [Table.namesAt, hc, Option.map_some]
  · rw [Table.namesAt, hc', Option.map_some, h.names]
  · rw [Table.commentAt, Table.commentAt, hc, hc']
    exact h.comment
  · rw [OrderedMap.keys, OrderedMap.keys, List.map_map, List.map_map]
    refine List.rel_map ?_ (forall₂_with_mem h.fields)
    rintro ⟨key, f⟩ ⟨key', f'⟩ ⟨hf, hf', hreordered, -⟩
    have hfield : t.field? owner key = some f := Table.mem_entryOf_map_iff.2 ⟨c, hc, hf⟩
    have hfield' : t'.field? owner' key' = some f' := Table.mem_entryOf_map_iff.2 ⟨c', hc', hf'⟩
    refine .of_pick hpositions f.names (.field ..) ?_ ?_ ?_
    · rw [Function.comp_apply, Table.namesAt, hfield, Option.map_some]
    · rw [Function.comp_apply, Table.namesAt, hfield', Option.map_some, hreordered.names]
    · rw [Function.comp_apply, Function.comp_apply, Table.commentAt, Table.commentAt,
        hfield, hfield']
      exact hreordered.comment
  · refine List.rel_flatMap (forall₂_with_mem h.methods) ?_
    rintro ⟨key, m⟩ ⟨key', m'⟩ ⟨hm, hm', hreordered, -⟩
    exact hreordered.forall₂_places hpositions (hobeys.methods _ hm)
      (Table.mem_entryOf_map_iff.2 ⟨c, hc, hm⟩) (Table.mem_entryOf_map_iff.2 ⟨c', hc', hm'⟩)

/-- After a table was `Reordered`, each of its places `StandsAt` one of the new table, one by
one. -/
theorem Table.Reordered.forall₂_places {source : Nat} (h : t.Reordered source positions t')
    (ht : t.Obeys rules) : List.Forall₂ (t.StandsAt t') t.places t'.places := by
  refine List.rel_flatMap (forall₂_with_mem h.classes) ?_
  rintro ⟨owner, c⟩ ⟨owner', c'⟩ ⟨hc, hc', hreordered, -⟩
  exact hreordered.forall₂_places hpositions (ht _ hc) (OrderedMap.get?_eq_some_iff.2 hc)
    (OrderedMap.get?_eq_some_iff.2 hc')

end Reordered

end MappingTables
