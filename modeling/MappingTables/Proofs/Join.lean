import Mathlib.Data.List.Sort
import MappingTables.Merge
import MappingTables.Proofs.Entries
import MappingTables.Proofs.Names
import MappingTables.Proofs.Namespaces

/-!
# Tables side by side

What the joining of two tables gives is said as a relation to what the two hold under each key.

* `Table.Joined`: the relation.
* `Table.joined_of_outcome`: joining gives a table for which it holds.
* `mem_unionKeys`, `pairwise_unionKeys`: the keys of one map or both, in ascending order.
-/

namespace MappingTables

/-! ## The keys of one map or both -/

section UnionKeys

variable {κ α : Type} [DecidableEq κ] {le : κ → κ → Bool} {left right : Option (OrderedMap κ α)}

/-- `unionKeys` are those of one map or the other. -/
theorem mem_unionKeys {k : κ} : k ∈ unionKeys le left right ↔
    (∃ m ∈ left, k ∈ m.keys) ∨ ∃ m ∈ right, k ∈ m.keys := by
  have hkeys : ∀ m : Option (OrderedMap κ α),
      k ∈ (m.map OrderedMap.keys).getD [] ↔ ∃ m' ∈ m, k ∈ m'.keys := by
    intro m
    cases m <;> simp
  rw [unionKeys]
  simp only [List.mem_mergeSort, List.mem_append, List.mem_filter, hkeys, decide_not,
    Bool.not_eq_true', decide_eq_false_iff_not]
  constructor
  · exact fun h => h.imp id And.left
  · intro h
    by_cases hleft : ∃ m ∈ left, k ∈ m.keys
    · exact .inl hleft
    · exact .inr ⟨h.resolve_left hleft, hleft⟩

/-- No key is twice among the `unionKeys`. -/
theorem nodup_unionKeys : (unionKeys le left right).Nodup := by
  have hkeys : ∀ m : Option (OrderedMap κ α), ((m.map OrderedMap.keys).getD []).Nodup := by
    intro m
    cases m with
    | none => exact List.nodup_nil
    | some m => exact m.nodup_keys
  rw [unionKeys, (List.mergeSort_perm _ _).nodup_iff, List.nodup_append]
  refine ⟨hkeys left, (hkeys right).filter _, ?_⟩
  rintro k hk k' hk' rfl
  exact of_decide_eq_true (List.mem_filter.1 hk').2 hk

/-- The `unionKeys` ascend. -/
theorem pairwise_unionKeys (h : IsKeyOrder le) : (unionKeys le left right).Pairwise (le · ·) :=
  List.pairwise_mergeSort h.trans h.total _

/-- The `unionKeys` are put into order one after the other, as `insertionSort` does. -/
theorem unionKeys_eq_insertionSort (h : IsKeyOrder le) (left right : Option (OrderedMap κ α)) :
    unionKeys le left right =
      ((left.map OrderedMap.keys).getD [] ++ ((right.map OrderedMap.keys).getD []).filter
        (· ∉ (left.map OrderedMap.keys).getD [])).insertionSort (le · ·) := by
  have htotal : Std.Total (fun a b => le a b = true) := ⟨fun a b => by simpa using h.total a b⟩
  have htrans : IsTrans κ (fun a b => le a b = true) := ⟨h.trans⟩
  have hantisymm : Std.Antisymm (fun a b => le a b = true) := ⟨h.antisymm⟩
  rw [unionKeys, ← List.mergeSort_eq_insertionSort]
  simp

end UnionKeys

/-! ## What is under a key on one side -/

/-- What `entryOf` finds under a key of a map that belongs to something is an entry of that map. -/
theorem mem_entries_of_mem_entryOf_map {κ α β : Type} [DecidableEq κ] {f : β → OrderedMap κ α}
    {b : Option β} {k : κ} {a : α} (h : a ∈ entryOf (b.map f) k) :
    ∃ b' ∈ b, (k, a) ∈ (f b').entries := by
  cases b with
  | none => cases h
  | some b => exact ⟨b, rfl, OrderedMap.get?_eq_some_iff.1 h⟩

section Obeys

variable {rules : EntryRules}

/-- A parameter that `entryOf` finds follows the `rules` if the method on its side does, if there is
one. -/
theorem obeys_of_mem_parameters {key : MemberKey} {method : Option Method}
    (h : ∀ m ∈ method, m.Obeys rules key) {index : UInt64} :
    ∀ p ∈ entryOf (method.map (·.parameters)) index, p.Obeys rules index := by
  intro p hp
  obtain ⟨m, hm, hmem⟩ := mem_entries_of_mem_entryOf_map hp
  exact (h m hm).parameters _ hmem

/-- A field that `entryOf` finds follows the `rules` if the class on its side does, if there is
one. -/
theorem obeys_of_mem_fields {key : String} {entry : Option ClassEntry}
    (h : ∀ c ∈ entry, c.Obeys rules key) {k : MemberKey} :
    ∀ f ∈ entryOf (entry.map (·.fields)) k, f.Obeys rules k := by
  intro f hf
  obtain ⟨c, hc, hmem⟩ := mem_entries_of_mem_entryOf_map hf
  exact (h c hc).fields _ hmem

/-- A method that `entryOf` finds follows the `rules` if the class on its side does, if there is
one. -/
theorem obeys_of_mem_methods {key : String} {entry : Option ClassEntry}
    (h : ∀ c ∈ entry, c.Obeys rules key) {k : MemberKey} :
    ∀ m ∈ entryOf (entry.map (·.methods)) k, m.Obeys rules k := by
  intro m hm
  obtain ⟨c, hc, hmem⟩ := mem_entries_of_mem_entryOf_map hm
  exact (h c hc).methods _ hmem

end Obeys

/-! ## The outcomes of joining -/

/-- An operation that takes no notes has its own `outcome`. -/
@[simp]
theorem Noted.outcome_liftM {ν α : Type} (x : Except Failure α) :
    (liftM x : Noted ν α).outcome = x :=
  rfl

/-- `joinValue` gives the value of the left side, or else that of the right side. -/
@[simp]
theorem outcome_joinValue (location subject : String) (left right : Option String) :
    (joinValue location subject left right).outcome = .ok (left.or right) := by
  cases left <;> cases right <;> rfl

/-- `joinComments` gives the comment of the left side, or else that of the right side. -/
@[simp]
theorem outcome_joinComments (location : String) (left right : Option String) :
    (joinComments location left right).outcome = .ok (left.or right) :=
  outcome_joinValue location "comment" left right

/-- Whether entries with the same key, if there are two, both have a name in the source namespace,
the one on the `left` and the one on the `right`. -/
def Joinable (left right : Option Names) : Prop :=
  ∀ l ∈ left, ∀ r ∈ right, l.source.isSome ∧ r.source.isSome

/-- `checkJoinable` succeeds exactly if the entries are `Joinable`. -/
theorem checkJoinable_eq_ok_iff {location : String} {left right : Option Names} {u : Unit} :
    checkJoinable location left right = .ok u ↔ Joinable left right := by
  cases left with
  | none => exact ⟨fun _ => nofun, fun _ => rfl⟩
  | some l =>
    cases right with
    | none => exact ⟨fun _ _ _ => nofun, fun _ => rfl⟩
    | some r =>
      rw [checkJoinable, Joinable]
      cases hl : l.source <;> cases hr : r.source <;> simp [hl, hr]

namespace Layout

variable (layout : Layout)

/-- The slots of an entry of one table or both, side by side: those `besideShared` follow the shared
one. -/
def slots (left right : Option Names) : List (Option String) :=
  (left.bind Names.source).or (right.bind Names.source) :: besideShared left layout.leftSlots ++
    besideShared right layout.rightSlots

/-- What an entry of one table or both is called: its names are in the `slots`. -/
structure NamesJoined (left right : Option Names) (names : Names) : Prop where
  slots : names.slots = layout.slots left right
  not_empty : some "" ∉ names.slots

/-- The parameter with an `index`, of one method or both. -/
structure ParameterJoined (index : UInt64) (left right : Option Parameter) (p : Parameter) :
    Prop where
  index : p.index = index
  names : layout.NamesJoined (left.map (·.names)) (right.map (·.names)) p.names
  comment : p.comment = (left.bind (·.comment)).or (right.bind (·.comment))

/-- The field with a `key`, of one class or both. -/
structure FieldJoined (key : MemberKey) (left right : Option Field) (f : Field) : Prop where
  joinable : Joinable (left.map (·.names)) (right.map (·.names))
  descriptor : f.descriptor = key.descriptor
  names : layout.NamesJoined (left.map (·.names)) (right.map (·.names)) f.names
  comment : f.comment = (left.bind (·.comment)).or (right.bind (·.comment))

/-- The method with a `key`, of one class or both. -/
structure MethodJoined (key : MemberKey) (left right : Option Method) (m : Method) : Prop where
  joinable : Joinable (left.map (·.names)) (right.map (·.names))
  descriptor : m.descriptor = key.descriptor
  names : layout.NamesJoined (left.map (·.names)) (right.map (·.names)) m.names
  comment : m.comment = (left.bind (·.comment)).or (right.bind (·.comment))
  parameters : List.Forall₂ (fun index e => e.1 = index ∧
    layout.ParameterJoined index (entryOf (left.map (·.parameters)) index)
      (entryOf (right.map (·.parameters)) index) e.2)
    (unionKeys indexLe (left.map (·.parameters)) (right.map (·.parameters))) m.parameters.entries

/-- The class with a key, of one table or both, which have to be `Joinable`. -/
structure ClassJoined (left right : Option ClassEntry) (c : ClassEntry) : Prop where
  joinable : Joinable (left.map (·.names)) (right.map (·.names))
  names : layout.NamesJoined (left.map (·.names)) (right.map (·.names)) c.names
  comment : c.comment = (left.bind (·.comment)).or (right.bind (·.comment))
  fields : List.Forall₂ (fun key e => e.1 = key ∧
    layout.FieldJoined key (entryOf (left.map (·.fields)) key)
      (entryOf (right.map (·.fields)) key) e.2)
    (unionKeys MemberKey.le (left.map (·.fields)) (right.map (·.fields))) c.fields.entries
  methods : List.Forall₂ (fun key e => e.1 = key ∧
    layout.MethodJoined key (entryOf (left.map (·.methods)) key)
      (entryOf (right.map (·.methods)) key) e.2)
    (unionKeys MemberKey.le (left.map (·.methods)) (right.map (·.methods))) c.methods.entries

variable {layout}

/-- `joinNames` gives the names that are `NamesJoined`: those side by side, if none of them is
empty. -/
theorem outcome_joinNames_eq_ok_iff {location : String} {left right : Option Names}
    {names : Names} :
    (layout.joinNames location left right).outcome = .ok names ↔
      layout.NamesJoined left right names := by
  rw [joinNames]
  simp only [Noted.outcome_bind, outcome_joinValue, ok_bind, Noted.outcome_liftM,
    Names.ofSlots_eq_ok_iff]
  constructor
  · rintro ⟨hempty, rfl⟩
    exact ⟨rfl, hempty⟩
  · rintro ⟨hslots, hempty⟩
    rw [hslots] at hempty
    exact ⟨hempty, Names.ext hslots⟩

/-- Entries are joined and put in one after the other. `join` and `IsJoined` say what comes of the
entries under a key, and `embed` says how the entries that `insert` puts in stand in the state. -/
theorem outcome_foldlM_join_eq_ok_iff {σ κ α : Type} [DecidableEq κ] {le : κ → κ → Bool}
    {left right : Option (OrderedMap κ α)} {join : κ → Option α → Option α → Noted Conflict α}
    {IsJoined : κ → Option α → Option α → α → Prop} {insert : σ → κ → α → Except Failure σ}
    (embed : OrderedMap κ α → σ)
    (hjoin : ∀ {k l r a}, (join k l r).outcome = .ok a ↔ IsJoined k l r a)
    (hinsert : ∀ {k l r a}, IsJoined k l r a →
      ∀ m, insert (embed m) k a = insertNew k a m >>= fun m' => pure (embed m')) {s : σ} :
    ((unionKeys le left right).foldlM (fun s k => do
        let a ← join k (entryOf left k) (entryOf right k)
        liftM (insert s k a)) (embed ∅)).outcome = .ok s ↔
      ∃ m, List.Forall₂ (fun k e => e.1 = k ∧ IsJoined k (entryOf left k) (entryOf right k) e.2)
        (unionKeys le left right) m.entries ∧ embed m = s := by
  simp only [outcome_foldlM, Noted.outcome_bind, Noted.outcome_liftM]
  refine OrderedMap.foldlM_insertNew_eq_ok_iff embed fun m k _ s => ?_
  simp only [bind_eq_ok_iff, hjoin]
  constructor
  · rintro ⟨a, ha, h⟩
    rw [hinsert ha, bind_eq_ok_iff] at h
    obtain ⟨m', hm', h⟩ := h
    exact ⟨(k, a), m', ⟨rfl, ha⟩, hm', pure_eq_ok_iff.1 h⟩
  · rintro ⟨e, m', ⟨rfl, ha⟩, hm', rfl⟩
    exact ⟨e.2, ha, by rw [hinsert ha, hm', ok_bind]; rfl⟩

/-- `joinParameter` gives the parameter that is `ParameterJoined`. -/
theorem outcome_joinParameter_eq_ok_iff {method : String} {index : UInt64}
    {left right : Option Parameter} {p : Parameter} :
    (layout.joinParameter method index left right).outcome = .ok p ↔
      layout.ParameterJoined index left right p := by
  rw [joinParameter]
  simp only [Noted.outcome_bind, outcome_joinComments, ok_bind, bind_eq_ok_iff,
    outcome_joinNames_eq_ok_iff, Noted.outcome_pure, Except.ok.injEq]
  constructor
  · rintro ⟨names, hnames, rfl⟩
    exact ⟨rfl, hnames, rfl⟩
  · rintro ⟨hindex, hnames, hcomment⟩
    exact ⟨p.names, hnames, Parameter.ext hindex.symm rfl hcomment.symm⟩

/-- `joinField` gives the field that is `FieldJoined`. -/
theorem outcome_joinField_eq_ok_iff {owner : String} {key : MemberKey} {left right : Option Field}
    {f : Field} : (layout.joinField owner key left right).outcome = .ok f ↔
      layout.FieldJoined key left right f := by
  rw [joinField]
  simp only [Noted.outcome_bind, outcome_joinComments, ok_bind, bind_eq_ok_iff, Noted.outcome_liftM,
    checkJoinable_eq_ok_iff, outcome_joinNames_eq_ok_iff, Noted.outcome_pure, Except.ok.injEq]
  constructor
  · rintro ⟨-, hjoinable, names, hnames, rfl⟩
    exact ⟨hjoinable, rfl, hnames, rfl⟩
  · rintro ⟨hjoinable, hdescriptor, hnames, hcomment⟩
    exact ⟨(), hjoinable, f.names, hnames, Field.ext hdescriptor.symm rfl hcomment.symm⟩

/-- `joinParameter` joins parameters one after the other: what comes of them is in a map with the
`unionKeys`. -/
theorem outcome_foldlM_joinParameter_eq_ok_iff {method descriptor : String} {names : Names}
    {comment : Option String} {left right : Option (OrderedMap UInt64 Parameter)} {m : Method} :
    ((unionKeys indexLe left right).foldlM (fun (m : Method) index => do
        let p ← layout.joinParameter method index (entryOf left index) (entryOf right index)
        liftM (m.addParameter p)) { descriptor, names, comment }).outcome = .ok m ↔
      ∃ parameters : OrderedMap UInt64 Parameter,
        List.Forall₂ (fun index e => e.1 = index ∧
          layout.ParameterJoined index (entryOf left index) (entryOf right index) e.2)
          (unionKeys indexLe left right) parameters.entries ∧
        ({ descriptor, names, comment, parameters } : Method) = m :=
  -- a parameter is put in under its own index, which is the one that it was joined for
  outcome_foldlM_join_eq_ok_iff (Method.mk descriptor names comment) outcome_joinParameter_eq_ok_iff
    fun h _ => by rw [← h.index]; rfl

/-- `joinMethod` gives the method that is `MethodJoined`. -/
theorem outcome_joinMethod_eq_ok_iff {owner : String} {key : MemberKey} {left right : Option Method}
    {m : Method} : (layout.joinMethod owner key left right).outcome = .ok m ↔
      layout.MethodJoined key left right m := by
  rw [joinMethod]
  simp only [Noted.outcome_bind, outcome_joinComments, ok_bind, bind_eq_ok_iff, Noted.outcome_liftM,
    checkJoinable_eq_ok_iff, outcome_joinNames_eq_ok_iff]
  constructor
  · rintro ⟨-, hjoinable, names, hnames, h⟩
    obtain ⟨parameters, hparameters, rfl⟩ := outcome_foldlM_joinParameter_eq_ok_iff.1 h
    exact ⟨hjoinable, rfl, hnames, rfl, hparameters⟩
  · rintro ⟨hjoinable, hdescriptor, hnames, hcomment, hparameters⟩
    refine ⟨(), hjoinable, m.names, hnames, outcome_foldlM_joinParameter_eq_ok_iff.2
      ⟨m.parameters, hparameters, ?_⟩⟩
    exact Method.ext hdescriptor.symm rfl hcomment.symm rfl

/-- `joinClass` gives the class that is `ClassJoined`. -/
theorem outcome_joinClass_eq_ok_iff {key : String} {left right : Option ClassEntry}
    {c : ClassEntry} : (layout.joinClass key left right).outcome = .ok c ↔
      layout.ClassJoined left right c := by
  rw [joinClass]
  simp only [Noted.outcome_bind, outcome_joinComments, ok_bind, bind_eq_ok_iff, Noted.outcome_liftM,
    checkJoinable_eq_ok_iff, outcome_joinNames_eq_ok_iff]
  constructor
  · rintro ⟨-, hjoinable, names, hnames, c', hc', hc⟩
    -- the class is filled with fields first and with methods after that
    obtain ⟨fields, hfields, rfl⟩ := (outcome_foldlM_join_eq_ok_iff (ClassEntry.mk names _ · ∅)
      outcome_joinField_eq_ok_iff fun _ _ => rfl).1 hc'
    obtain ⟨methods, hmethods, rfl⟩ := (outcome_foldlM_join_eq_ok_iff (ClassEntry.mk names _ fields)
      outcome_joinMethod_eq_ok_iff fun _ _ => rfl).1 hc
    exact ⟨hjoinable, hnames, rfl, hfields, hmethods⟩
  · rintro ⟨hjoinable, hnames, hcomment, hfields, hmethods⟩
    refine ⟨(), hjoinable, c.names, hnames, ClassEntry.mk c.names c.comment c.fields ∅, ?_, ?_⟩
    · exact (outcome_foldlM_join_eq_ok_iff (ClassEntry.mk c.names _ · ∅)
        outcome_joinField_eq_ok_iff fun _ _ => rfl).2 ⟨c.fields, hfields, by rw [hcomment]⟩
    · exact (outcome_foldlM_join_eq_ok_iff (ClassEntry.mk c.names _ c.fields)
        outcome_joinMethod_eq_ok_iff fun _ _ => rfl).2 ⟨c.methods, hmethods, rfl⟩

end Layout

/-! ## The joined table -/

namespace Table

/-- How the slots of the `left` and the `right` table are laid out side by side. -/
def joinLayout (left right : Table) : Layout where
  shared := left.namespaces.source
  leftSlots := left.namespaces.size - 1
  rightSlots := right.namespaces.size - 1

/-- `joinProperties` gives the header properties of the left table first, and after them those that
only the right table has, in the order that they have there. -/
theorem entries_joinProperties (left right : Table) :
    (joinProperties left right).entries = left.properties.entries ++
      right.properties.entries.filter fun e => e.1 ∉ left.properties.keys := by
  -- on the properties of the right table that are left, for any that were put together so far
  suffices ∀ (l : List (String × Option String)) (m : OrderedMap String (Option String)),
      (l.map Prod.fst).Nodup →
      (l.foldl (fun m e => if m.contains e.1 then m else m.insert e.1 e.2) m).entries =
        m.entries ++ l.filter fun e => e.1 ∉ m.keys from
    this _ _ right.properties.nodup_keys
  intro l
  induction l with
  | nil => exact fun m _ => (List.append_nil _).symm
  | cons e l ih =>
    intro m hnodup
    obtain ⟨hnew, hnodup⟩ := List.nodup_cons.1 hnodup
    rw [List.foldl_cons, ih _ hnodup]
    by_cases hkey : e.1 ∈ m.keys
    · simp [OrderedMap.contains_iff.2 hkey, hkey]
    · have hstep : (if m.contains e.1 then m else m.insert e.1 e.2) = m.insert e.1 e.2 :=
        if_neg fun h => hkey (OrderedMap.contains_iff.1 h)
      have hkeys : (m.insert e.1 e.2).keys = m.keys ++ [e.1] :=
        OrderedMap.keys_upsert_of_not_mem _ hkey
      have hfilter : (l.filter fun e' => e'.1 ∉ (m.insert e.1 e.2).keys) =
          l.filter fun e' => e'.1 ∉ m.keys := by
        refine List.filter_congr fun e' he' => ?_
        have hne : e'.1 ≠ e.1 := fun heq => hnew (heq ▸ List.mem_map_of_mem he')
        simp [hkeys, hne]
      simp only [hstep]
      rw [hfilter, OrderedMap.entries_insert_of_not_mem e.2 hkey,
        List.filter_cons_of_pos (by simpa using hkey), List.append_assoc, List.singleton_append]

/-- The table that holds what one table or both hold: each of its classes is `ClassJoined`. -/
structure Joined (left right t : Table) : Prop where
  namespaces : t.namespaces.labels = left.namespaces.labels ++ right.namespaces.labels.tail
  properties : t.properties = joinProperties left right
  classes : List.Forall₂ (fun key e => e.1 = key ∧
    (joinLayout left right).ClassJoined (left.classes.get? key) (right.classes.get? key) e.2)
    (unionKeys textLe (some left.classes) (some right.classes)) t.classes.entries

/-- `joinClass` joins classes one after the other. Each of them has to have a slot for each
namespace. -/
theorem foldlM_joinClass_eq_ok_iff {layout : Layout} {namespaces : Namespaces}
    {properties : OrderedMap String (Option String)} {left right : OrderedMap String ClassEntry}
    {t : Table} :
    (unionKeys textLe (some left) (some right)).foldlM (fun (t : Table) key => do
        let c ← (layout.joinClass key (left.get? key) (right.get? key)).outcome
        t.insertClass key c) { namespaces, properties } = .ok t ↔
      ∃ classes : OrderedMap String ClassEntry,
        List.Forall₂ (fun key e => e.1 = key ∧
          layout.ClassJoined (left.get? key) (right.get? key) e.2 ∧
          e.2.names.size = namespaces.size)
          (unionKeys textLe (some left) (some right)) classes.entries ∧
        ({ namespaces, properties, classes } : Table) = t := by
  refine OrderedMap.foldlM_insertNew_eq_ok_iff
    (fun classes => ({ namespaces, properties, classes } : Table)) fun classes key _ s => ?_
  simp only [bind_eq_ok_iff, insertClass, Layout.outcome_joinClass_eq_ok_iff, pure_eq_ok_iff,
    checkSlots_eq_ok_iff]
  constructor
  · rintro ⟨c, hc, _, hsize, m', hm', rfl⟩
    exact ⟨(key, c), m', ⟨rfl, hc, hsize⟩, hm', rfl⟩
  · rintro ⟨e, m', ⟨rfl, hc, hsize⟩, hm', rfl⟩
    exact ⟨e.2, hc, (), hsize, m', hm', rfl⟩

/-- `join` gives the table that is `Joined` from two, which holds what one of them or both hold, if
it has a slot for each namespace in its classes. -/
theorem outcome_join_eq_ok_iff {left right t : Table} : (join left right).outcome = .ok t ↔
    Joined left right t ∧ ∀ e ∈ t.classes.entries, e.2.names.size = t.namespaces.size := by
  rw [join, Noted.outcome_bind, Noted.outcome_liftM, bind_eq_ok_iff]
  simp only [Namespaces.ofLabels_eq_ok_iff, outcome_foldlM, Noted.outcome_bind, Noted.outcome_liftM,
    foldlM_joinClass_eq_ok_iff]
  constructor
  · rintro ⟨namespaces, hns, classes, hclasses, rfl⟩
    rw [Namespaces.source_eq_of_append hns] at hclasses
    refine ⟨⟨hns, rfl, hclasses.imp fun key e he => ⟨he.1, he.2.1⟩⟩, fun e he => ?_⟩
    obtain ⟨_, _, _, _, hsize⟩ := exists_of_forall₂_of_mem hclasses he
    exact hsize
  · rintro ⟨h, hsize⟩
    refine ⟨t.namespaces, h.namespaces, t.classes, ?_, Table.ext rfl h.properties.symm rfl⟩
    rw [Namespaces.source_eq_of_append h.namespaces]
    refine (forall₂_of_mem h.classes.flip fun e he key hc => ?_).flip
    exact ⟨hc.1, hc.2, hsize e he⟩

/-- `join` gives a table that is `Joined` from two: it holds what one of them or both hold. -/
theorem joined_of_outcome {left right t : Table} (h : (join left right).outcome = .ok t) :
    Joined left right t :=
  (outcome_join_eq_ok_iff.1 h).1

/-- Tables that `merge` merges are switched to the shared namespace by `switchSource`, joined by
`join` and put into order by `reorder`. The conflicts are those of `join`. -/
theorem outcome_merge_eq_ok_iff {a b merged : Table} {conflicts : List Conflict} {shared : String}
    (hshared : sharedLabels a b = [shared]) :
    (a.merge b).outcome = .ok (merged, conflicts) ↔ ∃ left right joined : Table,
      (a.switchSource shared).outcome = .ok left ∧ (b.switchSource shared).outcome = .ok right ∧
      (join left right).outcome = .ok joined ∧ (join left right).notes = conflicts ∧
      (joined.reorder (mergedLabels a b shared)).outcome = .ok merged := by
  rw [merge, hshared]
  simp only [Noted.outcome_bind, Noted.outcome_within, Noted.outcome_mapNotes, bind_eq_ok_iff,
    within_eq_ok_iff, Noted.outcome_pure, Except.ok.injEq, Prod.mk.injEq]
  constructor
  · rintro ⟨left, hleft, right, hright, joined, hjoined, merged', hmerged, rfl, hnotes⟩
    exact ⟨left, right, joined, hleft, hright, hjoined, hnotes, hmerged⟩
  · rintro ⟨left, right, joined, hleft, hright, hjoined, hnotes, hmerged⟩
    exact ⟨left, hleft, right, hright, joined, hjoined, merged, hmerged, rfl, hnotes⟩

/-- `merge` goes over tables that are rooted at the shared namespace and what is `Joined` from
them. -/
theorem outcome_merge_eq_ok {a b merged : Table} {conflicts : List Conflict} {shared : String}
    (hshared : sharedLabels a b = [shared]) (h : (a.merge b).outcome = .ok (merged, conflicts)) :
    ∃ left right joined : Table, (a.switchSource shared).outcome = .ok left ∧
      (b.switchSource shared).outcome = .ok right ∧ Joined left right joined ∧
      (joined.reorder (mergedLabels a b shared)).outcome = .ok merged := by
  obtain ⟨left, right, joined, hleft, hright, hjoined, -, hmerged⟩ :=
    (outcome_merge_eq_ok_iff hshared).1 h
  exact ⟨left, right, joined, hleft, hright, joined_of_outcome hjoined, hmerged⟩

end Table

end MappingTables
