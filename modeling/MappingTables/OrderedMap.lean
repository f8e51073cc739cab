/-!
# Maps that remember the order of insertion

An `OrderedMap` holds values under distinct keys, in the order in which the keys were inserted.
A value that is put under a key that is there already takes the place of the old one.

Main statements:

* `get?_upsert`, `get?_map`: what is found under a key after an operation.
* `keys_upsert_of_mem`, `keys_upsert_of_not_mem`: the keys and their order after an operation.
-/

namespace MappingTables

/-- Values under distinct keys, in the order of insertion. -/
@[ext]
structure OrderedMap (κ α : Type) where
  /-- The keys with their values, in the order of insertion. -/
  entries : List (κ × α)
  /-- No key is there twice. -/
  nodup_keys : (entries.map Prod.fst).Nodup

namespace OrderedMap

variable {κ α β : Type}

instance [DecidableEq κ] [DecidableEq α] : DecidableEq (OrderedMap κ α) := fun m n =>
  decidable_of_iff (m.entries = n.entries) OrderedMap.ext_iff.symm

/-- The map without entries. -/
def empty : OrderedMap κ α :=
  { entries := [], nodup_keys := List.nodup_nil }

instance : EmptyCollection (OrderedMap κ α) := ⟨empty⟩

instance : Inhabited (OrderedMap κ α) := ⟨empty⟩

/-- The keys of the `entries`, in the order of insertion. -/
def keys (m : OrderedMap κ α) : List κ :=
  m.entries.map Prod.fst

/-- The values of the `entries`, in the order of insertion. -/
def values (m : OrderedMap κ α) : List α :=
  m.entries.map Prod.snd

/-- The number of `entries`. -/
def size (m : OrderedMap κ α) : Nat :=
  m.entries.length

/-- The entries in ascending order of their keys, as `le` compares them. -/
def sorted (le : κ → κ → Bool) (m : OrderedMap κ α) : List (κ × α) :=
  m.entries.mergeSort fun a b => le a.1 b.1

/-- The map with each value changed by `f`, in the same order. -/
def map (f : α → β) (m : OrderedMap κ α) : OrderedMap κ β where
  entries := m.entries.map fun (k, a) => (k, f a)
  nodup_keys := by simpa [List.map_map, Function.comp_def] using m.nodup_keys

/-- The entries whose keys have a property `p`, in the same order. -/
def filterKeys (p : κ → Bool) (m : OrderedMap κ α) : OrderedMap κ α where
  entries := m.entries.filter fun e => p e.1
  nodup_keys := m.nodup_keys.sublist (List.filter_sublist.map _)

variable [DecidableEq κ]

/-- The value under a key `k`. -/
def get? (m : OrderedMap κ α) (k : κ) : Option α :=
  m.entries.lookup k

/-- Whether `get?` finds a value under the key. -/
def contains (m : OrderedMap κ α) (k : κ) : Bool :=
  (m.get? k).isSome

/-- `List.lookup` in entries, by whether the first one has the key. -/
theorem lookup_cons_ite (k k' : κ) (a : α) (l : List (κ × α)) :
    ((k', a) :: l).lookup k = if k = k' then some a else l.lookup k := by
  rw [List.lookup_cons]
  by_cases h : k = k' <;> simp [h, beq_eq_false_iff_ne.2]

/-- Puts `f` of the value under a key in its place, and `f none` at the end if there is none. -/
def upsertEntries (k : κ) (f : Option α → α) : List (κ × α) → List (κ × α)
  | [] => [(k, f none)]
  | (k', a) :: rest =>
    if k' = k then (k', f (some a)) :: rest else (k', a) :: upsertEntries k f rest

/-- `upsertEntries` leaves the keys as they are, but for one that is new. -/
theorem map_fst_upsertEntries (k : κ) (f : Option α → α) (l : List (κ × α)) :
    (upsertEntries k f l).map Prod.fst =
      if k ∈ l.map Prod.fst then l.map Prod.fst else l.map Prod.fst ++ [k] := by
  induction l with
  | nil => simp [upsertEntries]
  | cons e rest ih =>
    by_cases h : e.1 = k
    · simp [upsertEntries, h]
    · have h' : ¬ k = e.1 := fun hk => h hk.symm
      by_cases hmem : k ∈ rest.map Prod.fst <;> simp_all [upsertEntries]

/-- Changes the value under a key by `f` in its place, or puts a new one at the end. -/
def upsert (k : κ) (f : Option α → α) (m : OrderedMap κ α) : OrderedMap κ α where
  entries := upsertEntries k f m.entries
  nodup_keys := by
    rw [map_fst_upsertEntries]
    split
    · exact m.nodup_keys
    · next h =>
      exact List.nodup_append.2 ⟨m.nodup_keys, by simp, fun a ha b hb => by
        rw [List.mem_singleton] at hb
        exact fun hab => h (hb ▸ hab ▸ ha)⟩

/-- Puts a value under a key by `upsert`, in the place of the old one if there is one. -/
def insert (k : κ) (a : α) (m : OrderedMap κ α) : OrderedMap κ α :=
  m.upsert k fun _ => a

/-- Puts a value under a key that is not there yet, by `insert`. -/
def insertNew? (k : κ) (a : α) (m : OrderedMap κ α) : Option (OrderedMap κ α) :=
  if m.contains k then none else some (m.insert k a)

/-- Whether two maps hold values that `r` relates under the same keys, in whatever order. -/
def equiv (r : α → β → Bool) (m : OrderedMap κ α) (n : OrderedMap κ β) : Bool :=
  m.size == n.size && m.entries.all fun (k, a) => (n.get? k).any (r a)

/-- The value under a key `k'` after `upsertEntries` at a key `k`. -/
theorem lookup_upsertEntries (k k' : κ) (f : Option α → α) (l : List (κ × α)) :
    (upsertEntries k f l).lookup k' = if k' = k then some (f (l.lookup k)) else l.lookup k' := by
  induction l with
  | nil => simp [upsertEntries, lookup_cons_ite]
  | cons e rest ih =>
    obtain ⟨k₀, a⟩ := e
    by_cases h₀ : k₀ = k
    · subst h₀
      by_cases h : k' = k₀ <;> simp [upsertEntries, lookup_cons_ite, h]
    · have h₀' : ¬ k = k₀ := fun hk => h₀ hk.symm
      by_cases h : k' = k₀
      · subst h
        simp [upsertEntries, h₀]
      · simp [upsertEntries, lookup_cons_ite, h₀, h, ih, h₀']

/-- The value under a key `k'` after `upsert` at a key `k`. -/
theorem get?_upsert (m : OrderedMap κ α) (k k' : κ) (f : Option α → α) :
    (m.upsert k f).get? k' = if k' = k then some (f (m.get? k)) else m.get? k' :=
  lookup_upsertEntries k k' f m.entries

/-- The value under a key `k'` after `insert` at a key `k`. -/
theorem get?_insert (m : OrderedMap κ α) (k k' : κ) (a : α) :
    (m.insert k a).get? k' = if k' = k then some a else m.get? k' :=
  get?_upsert m k k' _

/-- The `empty` map holds nothing. -/
@[simp]
theorem get?_empty (k : κ) : (empty : OrderedMap κ α).get? k = none :=
  rfl

/-- The value under a key of `map f`, which changes all values. -/
theorem get?_map (f : α → β) (m : OrderedMap κ α) (k : κ) :
    (m.map f).get? k = (m.get? k).map f := by
  obtain ⟨l, hl⟩ := m
  simp only [get?, map]
  clear hl
  induction l with
  | nil => rfl
  | cons e rest ih =>
    obtain ⟨k₀, a⟩ := e
    by_cases h : k = k₀ <;> simp_all [lookup_cons_ite]

omit [DecidableEq κ] in
/-- `map` leaves the keys and their order alone. -/
@[simp]
theorem keys_map (f : α → β) (m : OrderedMap κ α) : (m.map f).keys = m.keys := by
  simp [keys, map, List.map_map, Function.comp_def]

/-- `upsert` under a key that is there leaves the keys and their order alone. -/
theorem keys_upsert_of_mem {m : OrderedMap κ α} {k : κ} (f : Option α → α) (h : k ∈ m.keys) :
    (m.upsert k f).keys = m.keys := by
  simp [keys, upsert, map_fst_upsertEntries, if_pos (show k ∈ m.entries.map Prod.fst from h)]

/-- `upsert` puts a new key last. -/
theorem keys_upsert_of_not_mem {m : OrderedMap κ α} {k : κ} (f : Option α → α) (h : k ∉ m.keys) :
    (m.upsert k f).keys = m.keys ++ [k] := by
  simp [keys, upsert, map_fst_upsertEntries, if_neg (show k ∉ m.entries.map Prod.fst from h)]

end OrderedMap

end MappingTables
