import MappingTables.Proofs.NameRules
import MappingTables.Proofs.OuterJoin
import MappingTables.Proofs.Places

/-!
# Joined tables, place by place

Whether two tables can be joined, and what comes out, is decided at each place for itself.

* `Table.Joined.at`: what stands at a place of the joined table.
* `Table.exists_joined_iff`: there is a joined table exactly if the entries at each place can be
  joined.
-/

namespace MappingTables

/-! ## Maps that are made from keys -/

section Forall₂

variable {κ α : Type} [DecidableEq κ] {R : κ → α → Prop}

omit [DecidableEq κ] in
/-- There is a map with an entry for each of some keys exactly if there can be one for each of
them. -/
theorem OrderedMap.exists_forall₂_iff {keys : List κ} (hnodup : keys.Nodup) :
    (∃ m : OrderedMap κ α, List.Forall₂ (fun k e => e.1 = k ∧ R k e.2) keys m.entries) ↔
      ∀ k ∈ keys, ∃ a, R k a :=
  exists_keyed_iff (k := id) (by simpa using hnodup)

omit [DecidableEq κ] in
/-- The keys of a map that is made from `keys`. -/
theorem OrderedMap.keys_of_forall₂ {keys : List κ} {m : OrderedMap κ α}
    (h : List.Forall₂ (fun k e => e.1 = k ∧ R k e.2) keys m.entries) : m.keys = keys := by
  simpa using keys_of_keyed (k := id) h

/-- `entryOf` finds something under a key on one side if it is a key of the map there. -/
theorem isSome_entryOf_iff {m : Option (OrderedMap κ α)} {k : κ} :
    (entryOf m k).isSome ↔ ∃ m' ∈ m, k ∈ m'.keys := by
  cases m with
  | none => simp [entryOf]
  | some m => simp [entryOf, ← OrderedMap.contains_iff, OrderedMap.contains]

/-- What is under a key of a map that is made from `unionKeys`: nothing if there is nothing on
either side, and else what `R` relates to it. -/
theorem OrderedMap.get?_of_forall₂ {β : Type} {le : κ → κ → Bool}
    {left right : Option (OrderedMap κ β)} {m : OrderedMap κ α}
    (h : List.Forall₂ (fun k e => e.1 = k ∧ R k e.2) (unionKeys le left right) m.entries) (k : κ) :
    (m.get? k = none ∧ entryOf left k = none ∧ entryOf right k = none) ∨
      ∃ a, m.get? k = some a ∧ R k a ∧
        ((entryOf left k).isSome || (entryOf right k).isSome) = true := by
  have hkeys : k ∈ m.keys ↔ (entryOf left k).isSome ∨ (entryOf right k).isSome := by
    rw [OrderedMap.keys_of_forall₂ h, mem_unionKeys, isSome_entryOf_iff, isSome_entryOf_iff]
  cases hget : m.get? k with
  | none =>
    refine .inl ⟨rfl, ?_⟩
    rw [OrderedMap.get?_eq_none_iff, hkeys, not_or] at hget
    simpa using hget
  | some a =>
    have hmem := OrderedMap.get?_eq_some_iff.1 hget
    obtain ⟨_, -, rfl, hrel⟩ := exists_of_forall₂_of_mem h hmem
    exact .inr ⟨a, rfl, hrel, Bool.or_eq_true_iff.2 (hkeys.1 (OrderedMap.mem_keys_of_mem hmem))⟩

end Forall₂

/-! ## What stands at a place -/

namespace Table

/-- What stands at a place of a table in which two tables are side by side: the names there are
`NamesJoined`. -/
structure JoinedAt (layout : Layout) (left right t : Table) (p : Place) : Prop where
  isSome : (t.namesAt p).isSome = ((left.namesAt p).isSome || (right.namesAt p).isSome)
  names : ∀ names ∈ t.namesAt p, layout.NamesJoined (left.namesAt p) (right.namesAt p) names
  comment : t.commentAt p = (left.commentAt p).or (right.commentAt p)
  joinable : p.keyName?.isSome → Joinable (left.namesAt p) (right.namesAt p)

variable {layout : Layout} {left right t : Table} {p : Place}

/-- Where nothing stands on both sides, nothing is `JoinedAt` the place. -/
theorem JoinedAt.of_none (hleft : left.namesAt p = none) (hright : right.namesAt p = none)
    (ht : t.namesAt p = none) : JoinedAt layout left right t p where
  isSome := by rw [hleft, hright, ht]; rfl
  names := by rw [ht]; nofun
  comment := by
    rw [commentAt_of_namesAt_eq_none hleft, commentAt_of_namesAt_eq_none hright,
      commentAt_of_namesAt_eq_none ht]
    rfl
  joinable _ := by rw [hleft]; nofun

/-- Where something stands on one side or both, what is `JoinedAt` the place is joined from it. -/
theorem JoinedAt.of_some {names : Names} (ht : t.namesAt p = some names)
    (hsome : ((left.namesAt p).isSome || (right.namesAt p).isSome) = true)
    (hnames : layout.NamesJoined (left.namesAt p) (right.namesAt p) names)
    (hcomment : t.commentAt p = (left.commentAt p).or (right.commentAt p))
    (hjoinable : p.keyName?.isSome → Joinable (left.namesAt p) (right.namesAt p)) :
    JoinedAt layout left right t p where
  isSome := by rw [ht, hsome]; rfl
  names _ h := Option.some.inj (ht.symm.trans h) ▸ hnames
  comment := hcomment
  joinable := hjoinable

namespace Joined

variable (h : Joined left right t) (owner : String) (key : MemberKey) (index : UInt64)

include h

/-- The class with a key in the table that is `Joined`, if there is one on one side or both. -/
theorem get?_classes :
    (t.classes.get? owner = none ∧ left.classes.get? owner = none ∧
        right.classes.get? owner = none) ∨
      ∃ c, t.classes.get? owner = some c ∧
        (joinLayout left right).ClassJoined (left.classes.get? owner) (right.classes.get? owner) c ∧
        ((left.classes.get? owner).isSome || (right.classes.get? owner).isSome) = true :=
  OrderedMap.get?_of_forall₂ h.classes owner

/-- The member with a key in a class of the joined table, if there is one on one side or both. The
members of its kind are the ones that `members` tells, and `IsJoined` says how they are joined. -/
theorem member? {α : Type} {members : ClassEntry → OrderedMap MemberKey α}
    {IsJoined : MemberKey → Option α → Option α → α → Prop}
    (hmembers : ∀ {l r c}, (joinLayout left right).ClassJoined l r c →
      List.Forall₂ (fun k e => e.1 = k ∧
        IsJoined k (entryOf (l.map members) k) (entryOf (r.map members) k) e.2)
        (unionKeys MemberKey.le (l.map members) (r.map members)) (members c).entries) :
    (entryOf ((t.classes.get? owner).map members) key = none ∧
        entryOf ((left.classes.get? owner).map members) key = none ∧
        entryOf ((right.classes.get? owner).map members) key = none) ∨
      ∃ a, entryOf ((t.classes.get? owner).map members) key = some a ∧
        IsJoined key (entryOf ((left.classes.get? owner).map members) key)
          (entryOf ((right.classes.get? owner).map members) key) a ∧
        ((entryOf ((left.classes.get? owner).map members) key).isSome ||
          (entryOf ((right.classes.get? owner).map members) key).isSome) = true := by
  rcases h.get?_classes owner with ⟨hc, hleft, hright⟩ | ⟨c, hc, hjoined, -⟩
  · rw [hc, hleft, hright]
    exact .inl ⟨rfl, rfl, rfl⟩
  · rw [hc]
    exact OrderedMap.get?_of_forall₂ (hmembers hjoined) key

/-- The `field?` with a key in the table that is `Joined`, if there is one on one side or both. -/
theorem field? :
    (t.field? owner key = none ∧ left.field? owner key = none ∧ right.field? owner key = none) ∨
      ∃ f, t.field? owner key = some f ∧
        (joinLayout left right).FieldJoined key (left.field? owner key) (right.field? owner key) f ∧
        ((left.field? owner key).isSome || (right.field? owner key).isSome) = true :=
  h.member? owner key Layout.ClassJoined.fields

/-- The `method?` with a key in the table that is `Joined`, if there is one on one side or both. -/
theorem method? :
    (t.method? owner key = none ∧ left.method? owner key = none ∧
        right.method? owner key = none) ∨
      ∃ m, t.method? owner key = some m ∧
        (joinLayout left right).MethodJoined key (left.method? owner key) (right.method? owner key)
          m ∧
        ((left.method? owner key).isSome || (right.method? owner key).isSome) = true :=
  h.member? owner key Layout.ClassJoined.methods

/-- The `parameter?` with an index in the table that is `Joined`, if there is one on one side or
both. -/
theorem parameter? :
    (t.parameter? owner key index = none ∧ left.parameter? owner key index = none ∧
        right.parameter? owner key index = none) ∨
      ∃ parameter, t.parameter? owner key index = some parameter ∧
        (joinLayout left right).ParameterJoined index (left.parameter? owner key index)
          (right.parameter? owner key index) parameter ∧
        ((left.parameter? owner key index).isSome || (right.parameter? owner key index).isSome) =
          true := by
  rw [Table.parameter?, Table.parameter?, Table.parameter?]
  rcases h.method? owner key with ⟨hm, hleft, hright⟩ | ⟨m, hm, hjoined, -⟩
  · rw [hm, hleft, hright]
    exact .inl ⟨rfl, rfl, rfl⟩
  · rw [hm]
    exact OrderedMap.get?_of_forall₂ hjoined.parameters index

end Joined

/-- What stands at each place of a table that is `Joined` is `JoinedAt` it. -/
theorem Joined.at (h : Joined left right t) (p : Place) :
    JoinedAt (joinLayout left right) left right t p := by
  cases p with
  | classEntry key =>
    rcases h.get?_classes key with ⟨ht, hleft, hright⟩ | ⟨c, ht, hc, hsome⟩
    · exact .of_none (Option.map_eq_none_iff.2 hleft) (Option.map_eq_none_iff.2 hright)
        (Option.map_eq_none_iff.2 ht)
    · refine .of_some (Option.map_eq_some_iff.2 ⟨c, ht, rfl⟩) ?_ hc.names ?_ fun _ => hc.joinable
      · simpa [namesAt] using hsome
      · rw [commentAt, ht]
        exact hc.comment
  | field owner key =>
    rcases h.field? owner key with ⟨ht, hleft, hright⟩ | ⟨f, ht, hf, hsome⟩
    · exact .of_none (Option.map_eq_none_iff.2 hleft) (Option.map_eq_none_iff.2 hright)
        (Option.map_eq_none_iff.2 ht)
    · refine .of_some (Option.map_eq_some_iff.2 ⟨f, ht, rfl⟩) ?_ hf.names ?_ fun _ => hf.joinable
      · simpa [namesAt] using hsome
      · rw [commentAt, ht]
        exact hf.comment
  | method owner key =>
    rcases h.method? owner key with ⟨ht, hleft, hright⟩ | ⟨m, ht, hm, hsome⟩
    · exact .of_none (Option.map_eq_none_iff.2 hleft) (Option.map_eq_none_iff.2 hright)
        (Option.map_eq_none_iff.2 ht)
    · refine .of_some (Option.map_eq_some_iff.2 ⟨m, ht, rfl⟩) ?_ hm.names ?_ fun _ => hm.joinable
      · simpa [namesAt] using hsome
      · rw [commentAt, ht]
        exact hm.comment
  | parameter owner key index =>
    -- parameters are matched by index, so nothing is asked of their names
    rcases h.parameter? owner key index with ⟨ht, hleft, hright⟩ | ⟨parameter, ht, hp, hsome⟩
    · exact .of_none (Option.map_eq_none_iff.2 hleft) (Option.map_eq_none_iff.2 hright)
        (Option.map_eq_none_iff.2 ht)
    · refine .of_some (Option.map_eq_some_iff.2 ⟨parameter, ht, rfl⟩) ?_ hp.names ?_
        fun hkey => absurd hkey Bool.false_ne_true
      · simpa [namesAt] using hsome
      · rw [commentAt, ht]
        exact hp.comment

/-- Where nothing stands in a table that is `Joined`, `nameAt` gives no name on either side. -/
theorem Joined.nameAt_eq_none (h : Joined left right t) {p : Place} (hnone : t.namesAt p = none)
    (label : String) : left.nameAt label p = none ∧ right.nameAt label p = none := by
  have hsome := (h.at p).isSome
  rw [hnone, Option.isSome_none, eq_comm, Bool.or_eq_false_iff, Option.isSome_eq_false_iff,
    Option.isSome_eq_false_iff, Option.isNone_iff_eq_none, Option.isNone_iff_eq_none] at hsome
  exact ⟨nameAt_of_namesAt_eq_none hsome.1, nameAt_of_namesAt_eq_none hsome.2⟩

/-- The members of a table that is `Joined` have the descriptors in their keys, and parameters have
the indices that they stand under. -/
theorem Joined.obeys (h : Joined left right t) : t.Obeys {} := by
  intro e he
  obtain ⟨_, -, -, hc⟩ := exists_of_forall₂_of_mem h.classes he
  refine ⟨trivial, fun f hf => ?_, fun m hm => ?_⟩
  · obtain ⟨_, -, rfl, hf⟩ := exists_of_forall₂_of_mem hc.fields hf
    exact ⟨hf.descriptor, trivial, trivial⟩
  · obtain ⟨_, -, rfl, hm⟩ := exists_of_forall₂_of_mem hc.methods hm
    refine ⟨hm.descriptor, trivial, trivial, fun p hp => ?_⟩
    obtain ⟨_, -, rfl, hp⟩ := exists_of_forall₂_of_mem hm.parameters hp
    exact ⟨hp.index, trivial⟩

/-- The entries of a table that is `Joined` stand in ascending order of their keys. -/
theorem Joined.isAscending (h : Joined left right t) : t.IsAscending := by
  refine ⟨OrderedMap.keys_of_forall₂ h.classes ▸ pairwise_unionKeys isKeyOrder_textLe,
    fun e he => ?_⟩
  obtain ⟨_, -, -, hc⟩ := exists_of_forall₂_of_mem h.classes he
  refine ⟨OrderedMap.keys_of_forall₂ hc.fields ▸ pairwise_unionKeys isKeyOrder_memberKey,
    OrderedMap.keys_of_forall₂ hc.methods ▸ pairwise_unionKeys isKeyOrder_memberKey,
    fun e he => ?_⟩
  obtain ⟨_, -, -, hm⟩ := exists_of_forall₂_of_mem hc.methods he
  exact OrderedMap.keys_of_forall₂ hm.parameters ▸ pairwise_unionKeys isKeyOrder_indexLe

/-! ## Tables that can be joined -/

/-- Whether the entries at a place of two tables can be joined. Only those that are matched by their
names have to be `Joinable`, and so need names in the shared namespace. -/
structure JoinableAt (left right : Table) (p : Place) : Prop where
  joinable : p.keyName?.isSome → Joinable (left.namesAt p) (right.namesAt p)
  not_empty : some "" ∉ (joinLayout left right).slots (left.namesAt p) (right.namesAt p)

section Exists

variable (h : ∀ p, JoinableAt left right p)

include h

theorem exists_parameterJoined (owner : String) (key : MemberKey) (index : UInt64) :
    ∃ parameter, (joinLayout left right).ParameterJoined index (left.parameter? owner key index)
      (right.parameter? owner key index) parameter := by
  have hne := (h (.parameter owner key index)).not_empty
  exact ⟨{ index, names := ⟨_⟩, comment := _ }, rfl, ⟨rfl, hne⟩, rfl⟩

theorem exists_fieldJoined (owner : String) (key : MemberKey) :
    ∃ f, (joinLayout left right).FieldJoined key (left.field? owner key) (right.field? owner key)
      f := by
  have hp := h (.field owner key)
  exact ⟨{ descriptor := key.descriptor, names := ⟨_⟩, comment := _ }, hp.joinable rfl, rfl,
    ⟨rfl, hp.not_empty⟩, rfl⟩

theorem exists_methodJoined (owner : String) (key : MemberKey) :
    ∃ m, (joinLayout left right).MethodJoined key (left.method? owner key)
      (right.method? owner key) m := by
  have hp := h (.method owner key)
  obtain ⟨parameters, hparameters⟩ := (OrderedMap.exists_forall₂_iff nodup_unionKeys).2
    fun index _ => exists_parameterJoined h owner key index
  exact ⟨{ descriptor := key.descriptor, names := ⟨_⟩, comment := _, parameters }, hp.joinable rfl,
    rfl, ⟨rfl, hp.not_empty⟩, rfl, hparameters⟩

theorem exists_classJoined (key : String) :
    ∃ c, (joinLayout left right).ClassJoined (left.classes.get? key)
      (right.classes.get? key) c := by
  have hp := h (.classEntry key)
  obtain ⟨fields, hfields⟩ := (OrderedMap.exists_forall₂_iff nodup_unionKeys).2
    fun k _ => exists_fieldJoined h key k
  obtain ⟨methods, hmethods⟩ := (OrderedMap.exists_forall₂_iff nodup_unionKeys).2
    fun k _ => exists_methodJoined h key k
  exact ⟨{ names := ⟨_⟩, comment := _, fields, methods }, hp.joinable rfl, ⟨rfl, hp.not_empty⟩, rfl,
    hfields, hmethods⟩

end Exists

/-- A table can be `Joined` from two exactly if the entries at each place are `JoinableAt` it. -/
theorem exists_joined_iff {namespaces : Namespaces}
    (hns : namespaces.labels = left.namespaces.labels ++ right.namespaces.labels.tail) :
    (∃ t, Joined left right t) ↔ ∀ p, JoinableAt left right p := by
  constructor
  · rintro ⟨t, h⟩ p
    have hp := h.at p
    refine ⟨hp.joinable, ?_⟩
    cases hnames : t.namesAt p with
    | none =>
      -- nothing stands on both sides, so there is no name
      have hnone := hp.isSome
      rw [hnames, Option.isSome_none, eq_comm, Bool.or_eq_false_iff, Option.isSome_eq_false_iff,
        Option.isSome_eq_false_iff, Option.isNone_iff_eq_none, Option.isNone_iff_eq_none] at hnone
      rw [hnone.1, hnone.2]
      exact fun hmem => (Layout.mem_slots hmem).elim nofun nofun
    | some names =>
      have hjoined := hp.names names hnames
      exact hjoined.slots ▸ hjoined.not_empty
  · intro h
    obtain ⟨classes, hclasses⟩ := (OrderedMap.exists_forall₂_iff nodup_unionKeys).2
      fun key _ => exists_classJoined h key
    exact ⟨{ namespaces, properties := joinProperties left right, classes }, hns, rfl, hclasses⟩

end Table

end MappingTables
