import MappingTables.Proofs.Entries
import MappingTables.Proofs.Names

/-!
# Tables overlaid with later ones

A table can be laid over another one that was there before. Entries of the earlier table stay where
they are, and entries that are new follow in the order of the later table. What is in both has the
later names where there are some, both comments, and its members overlaid in the same way.

* `OrderedMap.overlay`, `get?_overlay`: two maps, with a way to lay one value over another.
* `OrderedMap.overlay_insert`, `OrderedMap.overlaid_merged`: a map that is overlaid can get its
  entries one by one.
* `Table.overlay`: two tables.
-/

namespace MappingTables

namespace OrderedMap

variable {κ α : Type} [DecidableEq κ] {lay : α → α → α}

/-- A value laid over what was there before by `lay`, if anything was. -/
def overlaid (lay : α → α → α) : Option α → α → α
  | some earlier, later => lay earlier later
  | none, later => later

/-- A map overlaid with a `later` one. -/
def overlay (lay : α → α → α) (earlier later : OrderedMap κ α) : OrderedMap κ α where
  entries :=
    (earlier.entries.map fun e => (e.1, (later.get? e.1).elim e.2 (lay e.2))) ++
      later.entries.filter fun e => e.1 ∉ earlier.keys
  nodup_keys := by
    rw [List.map_append, List.map_map]
    refine List.nodup_append.2 ⟨earlier.nodup_keys,
      later.nodup_keys.sublist (List.filter_sublist.map _), ?_⟩
    intro k hk k' hk' heq
    obtain ⟨e, he, rfl⟩ := List.mem_map.1 hk'
    have hnew := of_decide_eq_true (List.mem_filter.1 he).2
    exact hnew (heq ▸ hk)

/-- The keys of the map below an `overlay` come first, and those that are new follow in the later
order. -/
theorem keys_overlay (m n : OrderedMap κ α) :
    (m.overlay lay n).keys = m.keys ++ n.keys.filter (· ∉ m.keys) := by
  rw [keys, overlay, List.map_append, List.map_map, keys.eq_def n, List.filter_map]
  rfl

/-- What `get?` finds under a key after `overlay`: what was there, with what is there later laid
over it by `lay`. -/
theorem get?_overlay (m n : OrderedMap κ α) (k : κ) :
    (m.overlay lay n).get? k = (m.get? k).merge lay (n.get? k) := by
  -- a key of the first map is looked up there, any other one in the second
  have hkept : (m.entries.map fun e => (e.1, (n.get? e.1).elim e.2 (lay e.2))).lookup k =
      (m.get? k).map fun a => (n.get? k).elim a (lay a) := by
    change _ = (m.entries.lookup k).map _
    induction m.entries with
    | nil => rfl
    | cons e rest ih =>
      rw [List.map_cons, lookup_cons_ite, ih, show e = (e.1, e.2) from rfl, lookup_cons_ite]
      by_cases hk : k = e.1
      · rw [if_pos hk, if_pos hk, ← hk, Option.map_some]
      · rw [if_neg hk, if_neg hk]
  have hnew : (n.entries.filter fun e => e.1 ∉ m.keys).lookup k =
      if k ∉ m.keys then n.get? k else none := by
    have h := get?_filterKeys n (fun k => decide (k ∉ m.keys)) k
    simp only [decide_eq_true_eq] at h
    exact h
  rw [get?, overlay, List.lookup_append, hkept, hnew]
  cases hm : m.get? k with
  | none =>
    rw [if_pos (get?_eq_none_iff.1 hm)]
    cases n.get? k <;> rfl
  | some a => cases n.get? k <;> rfl

/-- `overlay` with nothing changes nothing. -/
@[simp]
theorem overlay_empty (m : OrderedMap κ α) : m.overlay lay ∅ = m := by
  apply ext_get?
  · simp [keys_overlay]
  · intro k
    rw [get?_overlay, show (∅ : OrderedMap κ α).get? k = none from rfl]
    cases m.get? k <;> rfl

/-- What `insert` puts into the later map comes to the result, `overlaid` on what was there
earlier. -/
theorem overlay_insert (m n : OrderedMap κ α) (k : κ) (a : α) :
    m.overlay lay (n.insert k a) = (m.overlay lay n).insert k (overlaid lay (m.get? k) a) := by
  apply ext_get?
  · -- a key that is there earlier or later keeps its place, and one that is new comes last
    by_cases hn : k ∈ n.keys
    · have hkey : k ∈ (m.overlay lay n).keys := by
        rw [keys_overlay]
        by_cases hm : k ∈ m.keys <;> simp [hm, hn]
      rw [insert, insert, keys_upsert_of_mem _ hkey, keys_overlay, keys_overlay,
        keys_upsert_of_mem _ hn]
    · by_cases hm : k ∈ m.keys
      · have hkey : k ∈ (m.overlay lay n).keys := by simp [keys_overlay, hm]
        rw [insert, insert, keys_upsert_of_mem _ hkey, keys_overlay, keys_overlay,
          keys_upsert_of_not_mem _ hn]
        simp [hm]
      · have hkey : k ∉ (m.overlay lay n).keys := by simp [keys_overlay, hm, hn]
        rw [insert, insert, keys_upsert_of_not_mem _ hkey, keys_overlay, keys_overlay,
          keys_upsert_of_not_mem _ hn]
        simp [hm]
  · intro k'
    rw [get?_overlay, get?_insert, get?_insert, get?_overlay]
    by_cases hk : k' = k
    · subst hk
      rw [if_pos rfl, if_pos rfl]
      cases m.get? k' <;> rfl
    · rw [if_neg hk, if_neg hk]

/-- An entry that is changed if it is there, or else put in, after `overlay`: it can as well be
changed or put in before, if `lay` with the new entry is the same `change`. -/
theorem overlaid_merged (change : α → α) (a : α) (m n : OrderedMap κ α) (k : κ)
    (hnew : ∀ earlier, change earlier = lay earlier a)
    (hboth : ∀ earlier later, n.get? k = some later →
      change (lay earlier later) = lay earlier (change later)) :
    ((m.overlay lay n).get? k).elim a change =
      overlaid lay (m.get? k) ((n.get? k).elim a change) := by
  rw [get?_overlay]
  -- only what is there both earlier and later is changed in two ways
  cases hm : m.get? k with
  | none => cases n.get? k <;> rfl
  | some earlier =>
    cases hn : n.get? k with
    | none => exact hnew earlier
    | some later => exact hboth earlier later hn

end OrderedMap

namespace Names

/-- `overlay` can be done in one go, if there are no more of the `last` names than of those
before. -/
theorem overlay_overlay {earlier later last : Names} (h : last.size ≤ later.size) :
    (earlier.overlay later).overlay last = earlier.overlay (later.overlay last) := by
  obtain ⟨earlier⟩ := earlier
  obtain ⟨later⟩ := later
  obtain ⟨last⟩ := last
  suffices overlaySlots (overlaySlots earlier later) last =
      overlaySlots earlier (overlaySlots later last) from Names.ext this
  change last.length ≤ later.length at h
  -- names in positions that those before do not have are dropped, which the sizes rule out
  induction earlier generalizing later last with
  | nil => rfl
  | cons a earlier ih =>
    cases later with
    | nil =>
      rw [List.length_nil, Nat.le_zero, List.length_eq_zero_iff] at h
      subst h
      rfl
    | cons b later =>
      cases last with
      | nil => rfl
      | cons c last =>
        rw [overlaySlots, overlaySlots, overlaySlots, overlaySlots, Option.or_assoc,
          ih later last (Nat.le_of_succ_le_succ h)]

end Names

/-! ## Entries and tables -/

/-- Two comments: both, if both are there, the `earlier` one first. -/
def overlayComment (earlier later : Option String) : Option String :=
  earlier.merge (fun a b => a ++ "\n" ++ b) later

/-- `overlayComment` with no comment changes nothing. -/
@[simp]
theorem overlayComment_none (comment : Option String) : overlayComment comment none = comment := by
  cases comment <;> rfl

/-- A parameter overlaid with a `later` one. -/
def Parameter.overlay (earlier later : Parameter) : Parameter where
  index := earlier.index
  names := earlier.names.overlay later.names
  comment := overlayComment earlier.comment later.comment

/-- A field overlaid with a `later` one. -/
def Field.overlay (earlier later : Field) : Field where
  descriptor := earlier.descriptor
  names := earlier.names.overlay later.names
  comment := overlayComment earlier.comment later.comment

/-- A method overlaid with a `later` one. -/
def Method.overlay (earlier later : Method) : Method where
  descriptor := earlier.descriptor
  names := earlier.names.overlay later.names
  comment := overlayComment earlier.comment later.comment
  parameters := earlier.parameters.overlay Parameter.overlay later.parameters

/-- A class overlaid with a `later` one. -/
def ClassEntry.overlay (earlier later : ClassEntry) : ClassEntry where
  names := earlier.names.overlay later.names
  comment := overlayComment earlier.comment later.comment
  fields := earlier.fields.overlay Field.overlay later.fields
  methods := earlier.methods.overlay Method.overlay later.methods

/-- A table overlaid with a `later` one that has the same header. -/
def Table.overlay (earlier later : Table) : Table :=
  { earlier with classes := earlier.classes.overlay ClassEntry.overlay later.classes }

/-! ## Entries that are merged after overlaying -/

/-- `Method.mergedParameter` can be done to the later of two methods before `Method.overlay`. -/
theorem Method.mergedParameter_overlay (m : Method) {n : Method} {p : Parameter}
    (hcomment : p.comment = none)
    (hsize : ∀ e ∈ n.parameters.entries, e.2.names.size = p.names.size) :
    (m.overlay n).mergedParameter p =
      OrderedMap.overlaid Parameter.overlay (m.parameters.get? p.index) (n.mergedParameter p) := by
  refine OrderedMap.overlaid_merged (fun old => { old with names := old.names.overlay p.names }) p
    m.parameters n.parameters p.index (fun old => ?_) fun old new hnew => ?_
  · simp [Parameter.overlay, hcomment]
  · have hsize := hsize _ (OrderedMap.get?_eq_some_iff.1 hnew)
    simp [Parameter.overlay, Names.overlay_overlay (Nat.le_of_eq hsize.symm)]

/-- `ClassEntry.mergedField` can be done to the later of two classes before `ClassEntry.overlay`. -/
theorem ClassEntry.mergedField_overlay (c : ClassEntry) {d : ClassEntry} {key : MemberKey}
    {f : Field} (hcomment : f.comment = none)
    (hsize : ∀ e ∈ d.fields.entries, e.2.names.size = f.names.size) :
    (c.overlay d).mergedField key f =
      OrderedMap.overlaid Field.overlay (c.fields.get? key) (d.mergedField key f) := by
  refine OrderedMap.overlaid_merged (fun old => { old with names := old.names.overlay f.names }) f
    c.fields d.fields key (fun old => ?_) fun old new hnew => ?_
  · simp [Field.overlay, hcomment]
  · have hsize := hsize _ (OrderedMap.get?_eq_some_iff.1 hnew)
    simp [Field.overlay, Names.overlay_overlay (Nat.le_of_eq hsize.symm)]

/-- `ClassEntry.mergedMethod` can be done to the later of two classes before
`ClassEntry.overlay`. -/
theorem ClassEntry.mergedMethod_overlay (c : ClassEntry) {d : ClassEntry} {key : MemberKey}
    {m : Method} (hcomment : m.comment = none) (hparameters : m.parameters = ∅)
    (hsize : ∀ e ∈ d.methods.entries, e.2.names.size = m.names.size) :
    (c.overlay d).mergedMethod key m =
      OrderedMap.overlaid Method.overlay (c.methods.get? key) (d.mergedMethod key m) := by
  refine OrderedMap.overlaid_merged (fun old => { old with names := old.names.overlay m.names }) m
    c.methods d.methods key (fun old => ?_) fun old new hnew => ?_
  · simp [Method.overlay, hcomment, hparameters]
  · have hsize := hsize _ (OrderedMap.get?_eq_some_iff.1 hnew)
    simp [Method.overlay, Names.overlay_overlay (Nat.le_of_eq hsize.symm)]

/-- `Table.mergedClass` can be done to the later of two tables before `Table.overlay`. -/
theorem Table.mergedClass_overlay (t : Table) {u : Table} {key : String} {names : Names}
    (hsize : ∀ e ∈ u.classes.entries, e.2.names.size = names.size) :
    (t.overlay u).mergedClass key { names } =
      OrderedMap.overlaid ClassEntry.overlay (t.classes.get? key)
        (u.mergedClass key { names }) := by
  refine OrderedMap.overlaid_merged
    (fun old => { old with names := old.names.overlay names }) { names }
    t.classes u.classes key (fun old => ?_) fun old new hnew => ?_
  · simp [ClassEntry.overlay]
  · have hsize := hsize _ (OrderedMap.get?_eq_some_iff.1 hnew)
    simp [ClassEntry.overlay, Names.overlay_overlay (Nat.le_of_eq hsize.symm)]

end MappingTables
