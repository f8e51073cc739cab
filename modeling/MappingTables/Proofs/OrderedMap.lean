import Mathlib.Data.List.Nodup
import Mathlib.Data.List.Perm.Subperm
import Mathlib.Data.Option.Defs
import MappingTables.Proofs.Sequencing
import MappingTables.Table

/-!
# The theory of ordered maps

What an ordered map holds can be said by its list of entries, which knows their order, or by what is
found under each key, which does not. Here the two views are related, and the operations are
described in both.

* `get?_eq_some_iff`, `equiv_iff`: what is found under a key, and equality but for the order.
* `foldlM_insertNew_eq_ok_iff`, `foldlM_rekeyed_eq_ok_iff`: a map that is filled with new keys only.
* `foldlM_insert_eq_ok`, `foldlM_sorted_eq_ok`: a state that is filled entry by entry.
* `foldlM_flatMap_entries`: a state that is changed entry by entry.
* `exists_keyed_iff`, `exists_rekeyed_iff`: maps that are made entry by entry.
* `sortedMap`: the map with its entries in ascending order.
* `exists_perm_of_rel`, `forall₂_sorted_of_rel`: the entries of maps that hold related values.
* `exists_forall₂_of_rel`: maps that are made from such maps.
-/

namespace MappingTables

/-- Whether keys can be sorted by `le` in one way only. -/
structure IsKeyOrder {κ : Type} (le : κ → κ → Bool) : Prop where
  trans : ∀ a b c, le a b → le b c → le a c
  total : ∀ a b, le a b || le b a
  antisymm : ∀ a b, le a b → le b a → a = b

namespace OrderedMap

variable {κ α β σ : Type}

/-- The `keys` stand in the entries. -/
theorem mem_keys_iff {m : OrderedMap κ α} {k : κ} : k ∈ m.keys ↔ ∃ a, (k, a) ∈ m.entries := by
  simp [keys]

/-- The key of an entry is one of the `keys`. -/
theorem mem_keys_of_mem {m : OrderedMap κ α} {e : κ × α} (h : e ∈ m.entries) : e.1 ∈ m.keys :=
  List.mem_map_of_mem h

/-- The empty map has no `entries`. -/
@[simp]
theorem entries_empty : (∅ : OrderedMap κ α).entries = [] :=
  rfl

/-- What `P` asks of all entries is asked of none in the empty map. -/
theorem forall_mem_empty {P : κ × α → Prop} : ∀ e ∈ (∅ : OrderedMap κ α).entries, P e :=
  fun _ he => absurd he List.not_mem_nil

/-- The empty map has no `keys`. -/
@[simp]
theorem keys_empty : (∅ : OrderedMap κ α).keys = [] :=
  rfl

/-- `get?` finds nothing in the empty map. -/
theorem get?_emptyCollection [DecidableEq κ] (k : κ) : (∅ : OrderedMap κ α).get? k = none :=
  rfl

/-- Lists that `f` makes of the entries of a map, after each other. They repeat nothing if none of
them does, and what two of them share tells the key. -/
theorem nodup_flatMap {m : OrderedMap κ α} {f : κ × α → List β}
    (hnodup : ∀ e ∈ m.entries, (f e).Nodup)
    (hkey : ∀ e e' b, b ∈ f e → b ∈ f e' → e.1 = e'.1) : (m.entries.flatMap f).Nodup := by
  have hkeys : m.entries.Pairwise fun e e' => e.1 ≠ e'.1 := List.pairwise_map.1 m.nodup_keys
  exact List.nodup_flatMap.2 ⟨hnodup, hkeys.imp fun hne b hb hb' => hne (hkey _ _ b hb hb')⟩

variable [DecidableEq κ]

/-- What `get?` finds under a key is the value of the entry with that key. -/
theorem get?_eq_some_iff {m : OrderedMap κ α} {k : κ} {a : α} :
    m.get? k = some a ↔ (k, a) ∈ m.entries := by
  obtain ⟨l, hl⟩ := m
  change l.lookup k = some a ↔ (k, a) ∈ l
  induction l with
  | nil => simp
  | cons e rest ih =>
    obtain ⟨k', b⟩ := e
    rw [List.map_cons, List.nodup_cons] at hl
    rw [lookup_cons_ite]
    split
    · next h =>
      subst h
      have hmem : (k, a) ∉ rest := fun hmem => hl.1 (List.mem_map.2 ⟨(k, a), hmem, rfl⟩)
      simp [hmem, eq_comm]
    · next h => simp [ih hl.2, h]

/-- `get?` finds nothing under what is none of the `keys`. -/
theorem get?_eq_none_iff {m : OrderedMap κ α} {k : κ} : m.get? k = none ↔ k ∉ m.keys := by
  simp only [Option.eq_none_iff_forall_ne_some, ne_eq, get?_eq_some_iff, mem_keys_iff, not_exists]

/-- The `entries` of a map by what `get?` finds under its keys. -/
theorem entries_eq_filterMap (m : OrderedMap κ α) :
    m.entries = m.keys.filterMap fun k => (m.get? k).map (Prod.mk k) := by
  rw [keys, List.filterMap_map]
  conv_lhs => rw [← List.filterMap_some (l := m.entries)]
  refine List.filterMap_congr fun e he => ?_
  rw [Function.comp_apply, get?_eq_some_iff.2 (show (e.1, e.2) ∈ m.entries from he)]
  rfl

/-- Maps with the same `keys` in the same order, in which `get?` finds the same, are the same. -/
theorem ext_get? {m n : OrderedMap κ α} (hkeys : m.keys = n.keys)
    (hget : ∀ k, m.get? k = n.get? k) : m = n := by
  apply OrderedMap.ext
  rw [entries_eq_filterMap, entries_eq_filterMap, hkeys]
  simp only [hget]

/-- `get?` finds after `filterKeys` what is kept. -/
theorem get?_filterKeys (m : OrderedMap κ α) (p : κ → Bool) (k : κ) :
    (m.filterKeys p).get? k = if p k then m.get? k else none := by
  have hmem : ∀ a, (m.filterKeys p).get? k = some a ↔ m.get? k = some a ∧ p k = true := fun a => by
    rw [get?_eq_some_iff, get?_eq_some_iff, filterKeys, List.mem_filter]
  ext a
  rw [hmem]
  by_cases hk : p k = true
  · simp [hk]
  · simp [hk]

/-- `contains` holds of exactly the `keys`. -/
theorem contains_iff {m : OrderedMap κ α} {k : κ} : m.contains k = true ↔ k ∈ m.keys := by
  rw [contains, Option.isSome_iff_ne_none, ne_eq, get?_eq_none_iff, not_not]

/-- A new key that `insert` puts in comes last, with its value. -/
theorem entries_insert_of_not_mem {m : OrderedMap κ α} {k : κ} (a : α) (h : k ∉ m.keys) :
    (m.insert k a).entries = m.entries ++ [(k, a)] := by
  suffices ∀ l : List (κ × α), k ∉ l.map Prod.fst →
      upsertEntries k (fun _ => a) l = l ++ [(k, a)] from this m.entries h
  intro l h
  induction l with
  | nil => rfl
  | cons e rest ih =>
    rw [List.map_cons, List.mem_cons, not_or] at h
    rw [upsertEntries, if_neg (Ne.symm h.1), ih h.2]
    rfl

/-- The entries after `upsert` under a key: the changed one, and the old ones under other keys. -/
theorem mem_entries_upsert {m : OrderedMap κ α} {k k' : κ} {f : Option α → α} {b : α} :
    (k', b) ∈ (m.upsert k f).entries ↔
      (k' = k ∧ b = f (m.get? k)) ∨ (k' ≠ k ∧ (k', b) ∈ m.entries) := by
  rw [← get?_eq_some_iff, ← get?_eq_some_iff, get?_upsert]
  by_cases h : k' = k
  · simp [h, eq_comm]
  · simp [h]

/-- The entries after `insert` of a value under a key. -/
theorem mem_entries_insert {m : OrderedMap κ α} {k k' : κ} {a b : α} :
    (k', b) ∈ (m.insert k a).entries ↔
      (k' = k ∧ b = a) ∨ (k' ≠ k ∧ (k', b) ∈ m.entries) :=
  mem_entries_upsert

/-- What `P` says of all entries holds after `insert` of one of which it holds. -/
theorem forall_mem_insert {P : κ → α → Prop} {m : OrderedMap κ α} {k : κ} {a : α}
    (h : ∀ e ∈ m.entries, P e.1 e.2) (ha : P k a) : ∀ e ∈ (m.insert k a).entries, P e.1 e.2 := by
  intro e he
  rcases mem_entries_insert.1 he with ⟨hkey, hval⟩ | ⟨-, he⟩
  · rw [hkey, hval]
    exact ha
  · exact h e he

/-- `insertNew` can put in a key exactly if it is new, and it then comes last. -/
theorem insertNew_eq_ok_iff {m m' : OrderedMap κ α} {k : κ} {a : α} :
    insertNew k a m = .ok m' ↔ k ∉ m.keys ∧ m'.entries = m.entries ++ [(k, a)] := by
  rw [insertNew, insertNew?]
  by_cases h : k ∈ m.keys
  · simp [contains_iff.2 h, h]
  · rw [if_neg (fun hc => h (contains_iff.1 hc))]
    constructor
    · intro heq
      exact ⟨h, Except.ok.inj heq ▸ entries_insert_of_not_mem a h⟩
    · intro heq
      exact congrArg _ (OrderedMap.ext ((entries_insert_of_not_mem a h).trans heq.2.symm))

/-- `insertNew` can put in a key under which `get?` finds nothing. -/
theorem insertNew_of_get?_eq_none {m : OrderedMap κ α} {k : κ} (h : m.get? k = none) (a : α) :
    insertNew k a m = .ok (m.insert k a) := by
  simp [insertNew, insertNew?, contains, h]

/-- A state that is filled with new entries. `embed` says how the entries stand in the state, and
`rel` which entry is put in for an item; the entries come in the order of the items. -/
theorem foldlM_insertNew_eq_ok_iff_append {rel : β → κ × α → Prop}
    {step : σ → β → Except Failure σ} (embed : OrderedMap κ α → σ) {l : List β}
    (hstep : ∀ m, ∀ b ∈ l, ∀ s, step (embed m) b = .ok s ↔
      ∃ e m', rel b e ∧ insertNew e.1 e.2 m = .ok m' ∧ embed m' = s)
    {m : OrderedMap κ α} {s : σ} :
    l.foldlM step (embed m) = .ok s ↔
      ∃ made m', List.Forall₂ rel l made ∧ m'.entries = m.entries ++ made ∧ embed m' = s := by
  -- on the items that are left, for any map that was made from those before
  induction l generalizing m with
  | nil =>
    rw [List.foldlM_nil, pure_eq_ok_iff]
    constructor
    · intro h
      exact ⟨[], m, .nil, (List.append_nil _).symm, h⟩
    · rintro ⟨made, m', hmade, hm', h⟩
      rw [List.forall₂_nil_left_iff] at hmade
      rw [hmade, List.append_nil] at hm'
      exact OrderedMap.ext hm' ▸ h
  | cons b l ih =>
    have ih := fun m₁ => ih (fun m b' hb' => hstep m b' (List.mem_cons_of_mem b hb')) (m := m₁)
    simp only [List.foldlM_cons, bind_eq_ok_iff]
    constructor
    · rintro ⟨s₁, hs₁, h⟩
      obtain ⟨e, m₁, he, hm₁, rfl⟩ := (hstep m b List.mem_cons_self s₁).1 hs₁
      obtain ⟨made, m', hmade, hm', rfl⟩ := (ih m₁).1 h
      rw [(insertNew_eq_ok_iff.1 hm₁).2, List.append_assoc] at hm'
      exact ⟨e :: made, m', .cons he hmade, hm', rfl⟩
    · rintro ⟨_, m', hall, hm', rfl⟩
      obtain ⟨e, made, he, hmade, rfl⟩ := List.forall₂_cons_left_iff.1 hall
      -- the key is new, since the map in the end has it once, behind those that are there
      have hnew : e.1 ∉ m.keys := by
        have hnodup := m'.nodup_keys
        rw [hm', List.map_append, List.map_cons, List.nodup_append] at hnodup
        exact fun hk => hnodup.2.2 e.1 hk e.1 List.mem_cons_self rfl
      have hinsert := entries_insert_of_not_mem e.2 hnew
      refine ⟨embed (m.insert e.1 e.2), (hstep m b List.mem_cons_self _).2
        ⟨e, m.insert e.1 e.2, he, insertNew_eq_ok_iff.2 ⟨hnew, hinsert⟩, rfl⟩, ?_⟩
      refine (ih _).2 ⟨made, m', hmade, ?_, rfl⟩
      rw [hm', hinsert, List.append_assoc]
      rfl

/-- A state that `step` fills with new entries from the start holds one for each item, in their
order. -/
theorem foldlM_insertNew_eq_ok_iff {rel : β → κ × α → Prop} {step : σ → β → Except Failure σ}
    (embed : OrderedMap κ α → σ) {l : List β}
    (hstep : ∀ m, ∀ b ∈ l, ∀ s, step (embed m) b = .ok s ↔
      ∃ e m', rel b e ∧ insertNew e.1 e.2 m = .ok m' ∧ embed m' = s) {s : σ} :
    l.foldlM step (embed ∅) = .ok s ↔ ∃ m, List.Forall₂ rel l m.entries ∧ embed m = s := by
  rw [foldlM_insertNew_eq_ok_iff_append embed hstep]
  constructor
  · rintro ⟨made, m, hmade, hm, rfl⟩
    rw [entries_empty, List.nil_append] at hm
    exact ⟨m, hm ▸ hmade, rfl⟩
  · rintro ⟨m, hmade, rfl⟩
    exact ⟨m.entries, m, hmade, rfl, rfl⟩

/-- `foldlM` with a step that makes an entry in place of another one, and puts it under a key that
has to be new, gives a map with entries that are made of those given, one for each. -/
theorem foldlM_rekeyed_eq_ok_iff {κ' : Type} {R : β → α → Prop} (key : α → κ' → κ)
    {step : σ → κ' × β → Except Failure σ} (embed : OrderedMap κ α → σ) {l : List (κ' × β)}
    (hstep : ∀ m, ∀ e ∈ l, ∀ s, step (embed m) e = .ok s ↔
      ∃ a, R e.2 a ∧ ∃ m', insertNew (key a e.1) a m = .ok m' ∧ embed m' = s) {s : σ} :
    l.foldlM step (embed ∅) = .ok s ↔
      ∃ m, List.Forall₂ (fun e e' => R e.2 e'.2 ∧ e'.1 = key e'.2 e.1) l m.entries ∧
        embed m = s := by
  refine foldlM_insertNew_eq_ok_iff embed fun m e he s => (hstep m e he s).trans ?_
  constructor
  · rintro ⟨a, ha, m', hm', rfl⟩
    exact ⟨(_, a), m', ⟨ha, rfl⟩, hm', rfl⟩
  · rintro ⟨e', m', ⟨ha, hkey⟩, hm', rfl⟩
    exact ⟨e'.2, ha, m', hkey ▸ hm', rfl⟩

/-- The map with the given entries, put in by `insert`; of two for one key the later one counts. -/
def ofList (l : List (κ × α)) : OrderedMap κ α :=
  l.foldl (fun m e => m.insert e.1 e.2) ∅

/-- Entries that `insert` puts under keys that are new come after those that are there. -/
theorem entries_foldl_insert {l : List (κ × α)} {m : OrderedMap κ α}
    (hnodup : (m.keys ++ l.map Prod.fst).Nodup) :
    (l.foldl (fun m e => m.insert e.1 e.2) m).entries = m.entries ++ l := by
  induction l generalizing m with
  | nil => simp
  | cons e l ih =>
    have hnew : e.1 ∉ m.keys := fun h =>
      (List.nodup_append.1 hnodup).2.2 e.1 h e.1 List.mem_cons_self rfl
    have hkeys : (m.insert e.1 e.2).keys = m.keys ++ [e.1] := keys_upsert_of_not_mem _ hnew
    rw [List.foldl_cons, ih (by simpa [hkeys] using hnodup), entries_insert_of_not_mem e.2 hnew]
    simp

/-- The entries of a map that `ofList` makes of a list without a repeated key are those of the
list. -/
theorem entries_ofList {l : List (κ × α)} (hnodup : (l.map Prod.fst).Nodup) :
    (ofList l).entries = l :=
  entries_foldl_insert (m := ∅) (by simpa using hnodup)

/-- What is in a map that `ofList` makes was put into it. -/
theorem mem_of_mem_ofList {l : List (κ × α)} {e : κ × α} (h : e ∈ (ofList l).entries) : e ∈ l := by
  have hfold : ∀ m : OrderedMap κ α, e ∈ (l.foldl (fun m e => m.insert e.1 e.2) m).entries →
      e ∈ m.entries ∨ e ∈ l := by
    clear h
    induction l with
    | nil => exact fun m => .inl
    | cons e' l ih =>
      intro m he
      rcases ih _ he with he | he
      · rcases mem_entries_insert.1 he with ⟨hk, ha⟩ | ⟨-, he⟩
        · exact .inr (List.mem_cons.2 (.inl (Prod.ext hk ha)))
        · exact .inl he
      · exact .inr (List.mem_cons_of_mem e' he)
  exact (hfold ∅ h).resolve_left List.not_mem_nil

/-- A state that is filled entry by entry. `embed` says how the entries stand in the state, and a
step has to put in the entry of its item, as long as its key is not there. -/
theorem foldlM_insert_eq_ok {step : σ → β → Except Failure σ} (entry : β → κ × α)
    (embed : OrderedMap κ α → σ) {l : List β} {m : OrderedMap κ α}
    (hnodup : (m.keys ++ (l.map entry).map Prod.fst).Nodup)
    (hstep : ∀ b ∈ l, ∀ m : OrderedMap κ α, (entry b).1 ∉ m.keys →
      step (embed m) b = .ok (embed (m.insert (entry b).1 (entry b).2))) :
    l.foldlM step (embed m) =
      .ok (embed ((l.map entry).foldl (fun m e => m.insert e.1 e.2) m)) := by
  induction l generalizing m with
  | nil => rfl
  | cons b l ih =>
    have hnew : (entry b).1 ∉ m.keys := fun h =>
      (List.nodup_append.1 hnodup).2.2 _ h _ List.mem_cons_self rfl
    have hkeys : (m.insert (entry b).1 (entry b).2).keys = m.keys ++ [(entry b).1] :=
      keys_upsert_of_not_mem _ hnew
    rw [List.foldlM_cons, hstep b List.mem_cons_self m hnew, ok_bind]
    exact ih (by simpa [hkeys] using hnodup) fun b' hb' => hstep b' (List.mem_cons_of_mem b hb')

/-- Of two values that `insert` puts under one key the later one counts. -/
theorem insert_insert (m : OrderedMap κ α) (k : κ) (a b : α) :
    (m.insert k a).insert k b = m.insert k b := by
  refine OrderedMap.ext ?_
  change upsertEntries k _ (upsertEntries k _ m.entries) = upsertEntries k _ m.entries
  induction m.entries with
  | nil => simp [upsertEntries]
  | cons e rest ih =>
    by_cases h : e.1 = k
    · simp [upsertEntries, h]
    · simp [upsertEntries, h, ih]

/-- `insert` of what is there changes nothing. -/
theorem insert_of_get? {m : OrderedMap κ α} {k : κ} {a : α} (h : m.get? k = some a) :
    m.insert k a = m := by
  apply ext_get?
  · exact keys_upsert_of_mem _ (mem_keys_of_mem (get?_eq_some_iff.1 h))
  · intro k'
    rw [get?_insert]
    split
    · next hk => rw [hk, h]
    · rfl

/-- A value that `insert` puts under a key takes the place of the old one. -/
theorem entries_insert_of_append {m : OrderedMap κ α} {l l' : List (κ × α)} {k : κ} {a : α}
    (h : m.entries = l ++ (k, a) :: l') (b : α) : (m.insert k b).entries = l ++ (k, b) :: l' := by
  have hnew : k ∉ l.map Prod.fst := by
    have hnodup := m.nodup_keys
    rw [h, List.map_append, List.map_cons, List.nodup_append] at hnodup
    exact fun hk => hnodup.2.2 k hk k List.mem_cons_self rfl
  change upsertEntries k _ m.entries = _
  rw [h]
  clear h
  induction l with
  | nil => rw [List.nil_append, upsertEntries, if_pos rfl, List.nil_append]
  | cons e l ih =>
    rw [List.map_cons, List.mem_cons, not_or] at hnew
    rw [List.cons_append, upsertEntries, if_neg (Ne.symm hnew.1), ih hnew.2]
    rfl

/-- A state that is changed entry by entry, each at the place where it is. `embed` says how the
entries stand in the state, and the steps for an entry have to put another value in its place. -/
theorem foldlM_flatMap_entries {step : σ → β → Except Failure σ} {γ : Type}
    {items : κ × γ → List β} {before after : γ → α} (embed : OrderedMap κ α → σ)
    (source : OrderedMap κ γ)
    (hstep : ∀ e ∈ source.entries, ∀ m : OrderedMap κ α, m.get? e.1 = some (before e.2) →
      (items e).foldlM step (embed m) = .ok (embed (m.insert e.1 (after e.2)))) :
    (source.entries.flatMap items).foldlM step (embed (source.map before)) =
      .ok (embed (source.map after)) := by
  -- on the entries that are left, which are all as they were
  suffices ∀ l m : List (κ × γ), source.entries = m ++ l →
      ∀ n : OrderedMap κ α, n.entries = m.map (fun e => (e.1, after e.2)) ++
        l.map (fun e => (e.1, before e.2)) →
      (l.flatMap items).foldlM step (embed n) = .ok (embed (source.map after)) from
    this source.entries [] rfl _ rfl
  intro l
  induction l with
  | nil =>
    intro m hm n hn
    rw [List.append_nil] at hm
    rw [List.map_nil, List.append_nil, ← hm] at hn
    exact congrArg (fun n => Except.ok (embed n)) (OrderedMap.ext hn)
  | cons e l ih =>
    intro m hm n hn
    have hget : n.get? e.1 = some (before e.2) := by
      rw [get?_eq_some_iff, hn]
      simp
    have hmem : e ∈ source.entries := by
      rw [hm]
      simp
    rw [List.flatMap_cons, List.foldlM_append, hstep e hmem n hget, ok_bind]
    refine ih (m ++ [e]) (by rw [hm, List.append_cons]) _ ?_
    rw [List.map_cons] at hn
    rw [entries_insert_of_append hn, List.map_append, List.append_assoc]
    rfl

section Sorted

omit [DecidableEq κ]

/-- `sorted` keeps the entries. -/
theorem sorted_perm (le : κ → κ → Bool) (m : OrderedMap κ α) : (m.sorted le).Perm m.entries :=
  List.mergeSort_perm ..

/-- An entry is there after it was `sorted` if it was there before. -/
@[simp]
theorem mem_sorted {le : κ → κ → Bool} {m : OrderedMap κ α} {e : κ × α} :
    e ∈ m.sorted le ↔ e ∈ m.entries :=
  (sorted_perm le m).mem_iff

/-- The keys of `sorted` entries are distinct. -/
theorem nodup_keys_sorted (le : κ → κ → Bool) (m : OrderedMap κ α) :
    ((m.sorted le).map Prod.fst).Nodup :=
  ((sorted_perm le m).map Prod.fst).nodup_iff.2 m.nodup_keys

/-- The keys of `sorted` entries ascend. -/
theorem pairwise_keys_sorted {le : κ → κ → Bool} (h : IsKeyOrder le) (m : OrderedMap κ α) :
    ((m.sorted le).map Prod.fst).Pairwise (le · ·) :=
  List.pairwise_map.2 (List.pairwise_mergeSort (fun a b c => h.trans a.1 b.1 c.1)
    (fun a b => h.total a.1 b.1) m.entries)

/-- The map with its entries `sorted`, in ascending order of their keys. -/
def sortedMap (le : κ → κ → Bool) (m : OrderedMap κ α) : OrderedMap κ α where
  entries := m.sorted le
  nodup_keys := nodup_keys_sorted le m

/-- `sorted` does not look at the values. -/
theorem sorted_map (le : κ → κ → Bool) (f : α → β) (m : OrderedMap κ α) :
    (m.map f).sorted le = (m.sorted le).map fun e => (e.1, f e.2) := by
  rw [sorted, sorted, List.map_mergeSort]
  · rfl
  · intros
    rfl

/-- `map` and `sortedMap` can be done in either order. -/
theorem sortedMap_map (le : κ → κ → Bool) (f : α → β) (m : OrderedMap κ α) :
    (m.map f).sortedMap le = (m.sortedMap le).map f :=
  OrderedMap.ext (sorted_map le f m)

/-- `map` twice is `map` once. -/
theorem map_map {γ : Type} (f : α → β) (g : β → γ) (m : OrderedMap κ α) :
    (m.map f).map g = m.map fun a => g (f a) :=
  OrderedMap.ext (by simp [map, Function.comp_def])

end Sorted

/-- `sortedMap` does not change what `get?` finds under a key. -/
@[simp]
theorem get?_sortedMap (le : κ → κ → Bool) (m : OrderedMap κ α) (k : κ) :
    (m.sortedMap le).get? k = m.get? k := by
  refine Option.ext fun a => ?_
  rw [get?_eq_some_iff, get?_eq_some_iff]
  exact mem_sorted

/-- The `sorted` entries, put into a map by `ofList`, are the `sortedMap`. -/
theorem ofList_sorted (le : κ → κ → Bool) (m : OrderedMap κ α) :
    ofList (m.sorted le) = m.sortedMap le :=
  OrderedMap.ext (entries_ofList (nodup_keys_sorted le m))

/-- A state that is filled with the entries of a map, in ascending order. `embed` says how the
entries stand in the state, and a step has to put in the one of its item, as long as its key is not
there. -/
theorem foldlM_sorted_eq_ok {step : σ → β → Except Failure σ} {γ : Type} {le : κ → κ → Bool}
    (embed : OrderedMap κ α → σ) (m : OrderedMap κ γ) (item : κ × γ → β) (value : γ → α)
    (hstep : ∀ e ∈ m.entries, ∀ n : OrderedMap κ α, e.1 ∉ n.keys →
      step (embed n) (item e) = .ok (embed (n.insert e.1 (value e.2)))) :
    ((m.sorted le).map item).foldlM step (embed ∅) = .ok (embed ((m.map value).sortedMap le)) := by
  have hentries : (m.sorted le).map (fun e => (e.1, value e.2)) = (m.map value).sorted le :=
    (sorted_map le value m).symm
  rw [List.foldlM_map, ← ofList_sorted, ← hentries]
  refine foldlM_insert_eq_ok (fun e : κ × γ => (e.1, value e.2)) embed ?_ ?_
  · rw [hentries]
    exact nodup_keys_sorted le (m.map value)
  · intro e he n hnew
    exact hstep e (mem_sorted.1 he) n hnew

/-- Two maps are `equiv`, the same but for the order, exactly if, under each key, they hold values
that `r` relates or both nothing. -/
theorem equiv_iff {r : α → β → Bool} {m : OrderedMap κ α} {n : OrderedMap κ β} :
    m.equiv r n = true ↔ ∀ k, Option.Rel (fun a b => r a b = true) (m.get? k) (n.get? k) := by
  rw [equiv, Bool.and_eq_true, beq_iff_eq, List.all_eq_true]
  constructor
  · rintro ⟨hsize, hall⟩ k
    have hsub : m.keys ⊆ n.keys := by
      intro k hk
      obtain ⟨a, ha⟩ := mem_keys_iff.1 hk
      obtain ⟨b, hb, -⟩ := (Option.any_eq_true ..).1 (hall _ ha)
      exact mem_keys_iff.2 ⟨b, get?_eq_some_iff.1 hb⟩
    -- there are as many keys on the other side, so none of them is left out
    have hperm : m.keys.Perm n.keys :=
      (List.subperm_of_subset m.nodup_keys hsub).perm_of_length_le (by
        simp only [keys, List.length_map]
        exact Nat.le_of_eq hsize.symm)
    cases hm : m.get? k with
    | none =>
      rw [get?_eq_none_iff, hperm.mem_iff, ← get?_eq_none_iff] at hm
      exact hm ▸ .none
    | some a =>
      obtain ⟨b, hb, hr⟩ := (Option.any_eq_true ..).1 (hall _ (get?_eq_some_iff.1 hm))
      exact hb ▸ .some hr
  · intro hrel
    have hkeys : ∀ k, k ∈ m.keys ↔ k ∈ n.keys := by
      intro k
      rw [← not_iff_not, ← get?_eq_none_iff, ← get?_eq_none_iff]
      have hk := hrel k
      generalize m.get? k = a, n.get? k = b at hk
      cases hk <;> simp
    constructor
    · have hperm : m.keys.Perm n.keys :=
        (List.perm_ext_iff_of_nodup m.nodup_keys n.nodup_keys).2 hkeys
      simpa [keys, size] using hperm.length_eq
    · rintro ⟨k, a⟩ he
      have hk := hrel k
      rw [get?_eq_some_iff.2 he] at hk
      change (n.get? k).any (r a) = true
      generalize n.get? k = b at hk
      cases hk with
      | some h => exact h

/-- What is found in one of two options is found in the other one, if equality is what relates
them. -/
theorem rel_eq_iff {a b : Option α} : Option.Rel (· = ·) a b ↔ a = b := by
  constructor
  · intro h
    cases h with
    | some h => exact congrArg _ h
    | none => rfl
  · rintro rfl
    cases a with
    | none => exact .none
    | some a => exact .some rfl

/-- Options that `r` relates are both there, or neither is. -/
theorem isSome_of_rel {r : α → β → Prop} {a : Option α} {b : Option β} (h : Option.Rel r a b) :
    a.isSome = b.isSome := by
  cases h <;> rfl

/-- Options that `r` relates stay related by `r'` under a change that makes this of that. -/
theorem rel_map {γ δ : Type} {r : α → β → Prop} {r' : γ → δ → Prop} {f : α → γ} {g : β → δ}
    {a : Option α} {b : Option β} (h : Option.Rel r a b) (hfg : ∀ a b, r a b → r' (f a) (g b)) :
    Option.Rel r' (a.map f) (b.map g) := by
  cases h with
  | none => exact .none
  | some hab => exact .some (hfg _ _ hab)

/-- Two maps are `equiv` exactly if `get?` finds the same under each key. -/
theorem equiv_beq_iff [DecidableEq α] {m n : OrderedMap κ α} :
    m.equiv (· == ·) n = true ↔ ∀ k, m.get? k = n.get? k := by
  simp only [equiv_iff, beq_iff_eq, rel_eq_iff]

/-- What is found under a key of a map is found, up to `rel`, in a related one. -/
theorem exists_mem_of_rel {rel : α → β → Prop}
    {m : OrderedMap κ α} {n : OrderedMap κ β}
    (h : ∀ k, Option.Rel rel (m.get? k) (n.get? k)) {k : κ} {b : β} (hb : (k, b) ∈ n.entries) :
    ∃ a, (k, a) ∈ m.entries ∧ rel a b := by
  have hk := h k
  rw [get?_eq_some_iff.2 hb] at hk
  generalize hm : m.get? k = a at hk
  cases hk with
  | some hrel => exact ⟨_, get?_eq_some_iff.1 hm, hrel⟩

/-- Maps in which `get?` finds the same have the same entries, but for the order. -/
theorem mem_entries_iff_of_get?_eq {m n : OrderedMap κ α}
    (h : ∀ k, m.get? k = n.get? k) {e : κ × α} : e ∈ m.entries ↔ e ∈ n.entries := by
  rw [← get?_eq_some_iff (k := e.1), ← get?_eq_some_iff (k := e.1), h]

/-- The `value` that some entries have, put into a map by `insert` under the entries' keys. -/
theorem get?_foldl_insert (value : α → Option β)
    {l : List (κ × α)} (hnodup : (l.map Prod.fst).Nodup) (m : OrderedMap κ β) (k : κ) :
    (l.foldl (fun m e => match value e.2 with
      | some b => m.insert e.1 b
      | none => m) m).get? k = ((l.lookup k).bind value).or (m.get? k) := by
  induction l generalizing m with
  | nil => rfl
  | cons e l ih =>
    obtain ⟨k', a⟩ := e
    rw [List.map_cons, List.nodup_cons] at hnodup
    rw [List.foldl_cons, ih hnodup.2, lookup_cons_ite]
    by_cases hk : k = k'
    · subst hk
      -- the key occurs once, so nothing that follows inserts it again
      have hnone : l.lookup k = none := by
        rw [List.lookup_eq_none_iff]
        rintro ⟨k', a'⟩ hmem
        rw [bne_iff_ne]
        rintro rfl
        exact hnodup.1 (List.mem_map.2 ⟨_, hmem, rfl⟩)
      rw [hnone, if_pos rfl]
      cases hv : value a with
      | none => simp [hv]
      | some b => simp [hv, get?_insert]
    · rw [if_neg hk]
      cases hv : value a with
      | none => rfl
      | some b => simp [get?_insert, hk]

/-! ## Maps that are made entry by entry -/

section Keyed

variable {γ : Type} {k : γ → κ} {R : γ → α → Prop}

omit [DecidableEq κ]

/-- The `keys` of a map with an entry for each item of a list, under the key that `k` gives it. -/
theorem keys_of_keyed {l : List γ} {m : OrderedMap κ α}
    (h : List.Forall₂ (fun c e => e.1 = k c ∧ R c e.2) l m.entries) : m.keys = l.map k := by
  rw [keys]
  generalize m.entries = entries at h
  induction h with
  | nil => rfl
  | cons he _ ih => rw [List.map_cons, List.map_cons, he.1, ih]

/-- A map with an entry for each item of a list. If the keys that `k` gives are distinct, there is
one exactly if `R` can give an entry for each of the items. -/
theorem exists_keyed_iff {l : List γ} (hnodup : (l.map k).Nodup) :
    (∃ m : OrderedMap κ α, List.Forall₂ (fun c e => e.1 = k c ∧ R c e.2) l m.entries) ↔
      ∀ c ∈ l, ∃ a, R c a := by
  constructor
  · rintro ⟨m, h⟩ c hc
    obtain ⟨e, -, -, hrel⟩ := exists_of_forall₂_of_mem h.flip hc
    exact ⟨e.2, hrel⟩
  · intro h
    have hentries : ∃ entries : List (κ × α), entries.map Prod.fst = l.map k ∧
        List.Forall₂ (fun c e => e.1 = k c ∧ R c e.2) l entries := by
      -- each element of the list gives one entry, in order
      clear hnodup
      induction l with
      | nil => exact ⟨[], rfl, .nil⟩
      | cons c l ih =>
        obtain ⟨a, ha⟩ := h c List.mem_cons_self
        obtain ⟨entries, hkeys, hrel⟩ := ih fun c hc => h c (List.mem_cons_of_mem _ hc)
        exact ⟨(k c, a) :: entries, congrArg (k c :: ·) hkeys, .cons ⟨rfl, ha⟩ hrel⟩
    obtain ⟨entries, hkeys, hrel⟩ := hentries
    exact ⟨{ entries, nodup_keys := hkeys ▸ hnodup }, hrel⟩

/-- A map with an entry in place of each one of another map, under the new key that `k` gives it.
There is one exactly if `R` can replace each entry and no two get the same key. -/
theorem exists_rekeyed_iff {κ' : Type} {m : OrderedMap κ' β} {k : κ' × β → κ}
    {R : κ' × β → α → Prop} :
    (∃ n : OrderedMap κ α, List.Forall₂ (fun e e' => e'.1 = k e ∧ R e e'.2) m.entries n.entries) ↔
      (∀ e ∈ m.entries, ∃ a, R e a) ∧
        ∀ e ∈ m.entries, ∀ e' ∈ m.entries, k e = k e' → e.1 = e'.1 := by
  constructor
  · rintro ⟨n, h⟩
    have hnodup : (m.entries.map k).Nodup := keys_of_keyed h ▸ n.nodup_keys
    refine ⟨(exists_keyed_iff hnodup).1 ⟨n, h⟩, fun e he e' he' hkey => ?_⟩
    rw [List.inj_on_of_nodup_map hnodup he he' hkey]
  · rintro ⟨hexists, hdistinct⟩
    refine (exists_keyed_iff ?_).2 hexists
    -- entries with the same old key are the same
    refine m.nodup_keys.of_map.map_on fun e he e' he' hkey => ?_
    exact List.inj_on_of_nodup_map m.nodup_keys he he' (hdistinct e he e' he' hkey)

end Keyed

/-! ## Maps that hold related values -/

section Related

variable {le : κ → κ → Bool} {rel : α → β → Prop} {m : OrderedMap κ α} {n : OrderedMap κ β}

/-- Ascending maps with values under the same keys hold values that `rel` relates in the same order,
if values under the same key are related. -/
theorem forall₂_of_get? (hle : IsKeyOrder le) (hm : m.keys.Pairwise (le · ·))
    (hn : n.keys.Pairwise (le · ·)) (hkeys : ∀ k, (m.get? k).isSome = (n.get? k).isSome)
    (hrel : ∀ k a b, m.get? k = some a → n.get? k = some b → rel a b) :
    List.Forall₂ (fun e e' => e.1 = e'.1 ∧ rel e.2 e'.2) m.entries n.entries := by
  have hmem : ∀ k, k ∈ m.keys ↔ k ∈ n.keys := by
    intro k
    rw [← contains_iff, ← contains_iff, contains, contains, hkeys]
  -- both are in the order of their keys, so the same keys stand in the same order
  have hsame : m.keys = n.keys :=
    ((List.perm_ext_iff_of_nodup m.nodup_keys n.nodup_keys).2 hmem).eq_of_pairwise
      (fun _ _ _ _ => hle.antisymm _ _) hm hn
  have hzip : List.Forall₂ (fun e e' => e.1 = e'.1) m.entries n.entries := by
    rw [keys, keys, ← List.forall₂_eq_eq_eq, List.forall₂_map_left_iff,
      List.forall₂_map_right_iff] at hsame
    exact hsame
  have hmemLeft := forall₂_of_mem hzip fun e he e' hkey => And.intro he hkey
  refine (forall₂_of_mem hmemLeft.flip fun e' he' e he => ?_).flip
  have hget := get?_eq_some_iff.2 he.1
  rw [he.2] at hget
  exact ⟨he.2, hrel _ _ _ hget (get?_eq_some_iff.2 he')⟩

/-- Maps whose entries are related by `rel`, one after the other, hold related values. -/
theorem rel_get?_of_forall₂
    (h : List.Forall₂ (fun e e' => e.1 = e'.1 ∧ rel e.2 e'.2) m.entries n.entries) (k : κ) :
    Option.Rel rel (m.get? k) (n.get? k) := by
  rw [get?, get?]
  generalize m.entries = l, n.entries = l' at h
  induction h with
  | nil => exact .none
  | @cons e e' _ _ he _ ih =>
    obtain ⟨k₀, a⟩ := e
    obtain ⟨k₁, b⟩ := e'
    obtain ⟨rfl, hab⟩ := he
    rw [lookup_cons_ite, lookup_cons_ite]
    split
    · exact .some hab
    · exact ih

variable (h : ∀ k, Option.Rel rel (m.get? k) (n.get? k))

include h

/-- Maps that hold related values have the same `keys`, but for the order. -/
theorem perm_keys_of_rel : m.keys.Perm n.keys := by
  have hmem : ∀ k, k ∈ m.keys ↔ k ∈ n.keys := by
    intro k
    rw [← contains_iff, ← contains_iff, contains, contains, isSome_of_rel (h k)]
  exact (List.perm_ext_iff_of_nodup m.nodup_keys n.nodup_keys).2 hmem

/-- Maps that hold values that `rel` relates hold them in the same order once one of them is put
into the order of the other one. -/
theorem exists_perm_of_rel : ∃ l, l.Perm m.entries ∧
    List.Forall₂ (fun e e' => e.1 = e'.1 ∧ rel e.2 e'.2) l n.entries := by
  refine ⟨n.keys.filterMap fun k => (m.get? k).map (Prod.mk k), ?_, ?_⟩
  · rw [entries_eq_filterMap m]
    exact (perm_keys_of_rel h).symm.filterMap _
  · rw [entries_eq_filterMap n]
    induction n.keys with
    | nil => exact .nil
    | cons k ks ih =>
      rw [List.filterMap_cons, List.filterMap_cons]
      have hk := h k
      generalize m.get? k = a, n.get? k = b at hk
      cases hk with
      | none => exact ih
      | some hab => exact .cons ⟨rfl, hab⟩ ih

/-- What `f` and `g` list for the entries is the same, but for the order, if it is for values that
`rel` relates. -/
theorem perm_flatMap_of_rel {γ : Type} {f : κ × α → List γ} {g : κ × β → List γ}
    (hfg : ∀ k a b, rel a b → (f (k, a)).Perm (g (k, b))) :
    (m.entries.flatMap f).Perm (n.entries.flatMap g) := by
  obtain ⟨l, hperm, hrel⟩ := exists_perm_of_rel h
  refine (hperm.symm.flatMap_right f).trans ?_
  clear hperm
  generalize n.entries = l' at hrel
  induction hrel with
  | nil => exact .nil
  | @cons e e' _ _ he _ ih =>
    obtain ⟨k, a⟩ := e
    obtain ⟨k', b⟩ := e'
    obtain ⟨rfl, hab⟩ := he
    rw [List.flatMap_cons, List.flatMap_cons]
    exact (hfg _ a b hab).append ih

/-- A map that is made entry by entry by `R` can be made by `S` of related values instead, if each
entry can. The entries keep the keys that they were made for. -/
theorem exists_forall₂_of_rel {κ' γ δ : Type} [DecidableEq κ'] {R : κ × α → κ' × γ → Prop}
    {S : κ × β → κ' × δ → Prop} {Q : γ → δ → Prop} {result : OrderedMap κ' γ}
    (hmade : List.Forall₂ R m.entries result.entries)
    (hstep : ∀ k a b k' c, rel a b → R (k, a) (k', c) → ∃ d, S (k, b) (k', d) ∧ Q c d) :
    ∃ result' : OrderedMap κ' δ, List.Forall₂ S n.entries result'.entries ∧
      ∀ k, Option.Rel Q (result.get? k) (result'.get? k) := by
  -- the entries of `m`, and with them the result, are put into the order of `n`
  obtain ⟨l, hperm, hrel⟩ := exists_perm_of_rel h
  obtain ⟨entries, hmade, hentries⟩ := List.perm_comp_forall₂ hperm hmade
  obtain ⟨entries', hmade', hrel'⟩ := exists_forall₂_square hrel hmade
    (T := S) (U := fun e e' => e.1 = e'.1 ∧ Q e.2 e'.2) (by
      rintro ⟨k, a⟩ ⟨_, b⟩ ⟨k', c⟩ ⟨rfl, hab⟩ hac
      obtain ⟨d, hbd, hcd⟩ := hstep k a b k' c hab hac
      exact ⟨(k', d), hbd, rfl, hcd⟩)
  have hkeys : entries.map Prod.fst = entries'.map Prod.fst := by
    rw [← List.forall₂_eq_eq_eq, List.forall₂_map_left_iff, List.forall₂_map_right_iff]
    exact hrel'.imp fun _ _ he => he.1
  have hnodup : (entries.map Prod.fst).Nodup :=
    (hentries.map Prod.fst).nodup_iff.2 result.nodup_keys
  refine ⟨{ entries := entries', nodup_keys := hkeys ▸ hnodup }, hmade', fun k => ?_⟩
  let result₁ : OrderedMap κ' γ := { entries, nodup_keys := hnodup }
  -- a lookup does not see the order
  have hget : result.get? k = result₁.get? k := by
    refine Option.ext fun c => ?_
    rw [get?_eq_some_iff, get?_eq_some_iff, hentries.mem_iff]
  rw [hget]
  exact rel_get?_of_forall₂ (m := result₁) hrel' k

/-- Maps that hold values that `rel` relates hold them in the same order once they are `sorted`. -/
theorem forall₂_sorted_of_rel (hle : IsKeyOrder le) :
    List.Forall₂ (fun e e' => e.1 = e'.1 ∧ rel e.2 e'.2) (m.sorted le) (n.sorted le) := by
  refine forall₂_of_get? (m := m.sortedMap le) (n := n.sortedMap le) hle
    (pairwise_keys_sorted hle m) (pairwise_keys_sorted hle n) (fun k => ?_) fun k a b ha hb => ?_
  · rw [get?_sortedMap, get?_sortedMap, isSome_of_rel (h k)]
  · rw [get?_sortedMap] at ha hb
    have hk := h k
    rw [ha, hb] at hk
    cases hk with
    | some hab => exact hab

end Related

/-- What `f` makes of values that `rel` relates is the same if they are taken `sorted`. -/
theorem map_sorted_eq_of_rel {le : κ → κ → Bool} {rel : α → α → Prop} {m n : OrderedMap κ α}
    (h : ∀ k, Option.Rel rel (m.get? k) (n.get? k)) (hle : IsKeyOrder le) {f : κ × α → β}
    (hf : ∀ k a b, rel a b → f (k, a) = f (k, b)) : (m.sorted le).map f = (n.sorted le).map f := by
  rw [← List.forall₂_eq_eq_eq, List.forall₂_map_left_iff, List.forall₂_map_right_iff]
  refine (forall₂_sorted_of_rel h hle).imp ?_
  rintro ⟨k, a⟩ ⟨k', b⟩ ⟨rfl, hab⟩
  exact hf k a b hab

end OrderedMap

end MappingTables
