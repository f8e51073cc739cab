import MappingTables.Proofs.Join
import MappingTables.Proofs.MapNames
import MappingTables.Proofs.Switch

/-!
# Names that are carried over

Switching, joining and completing tables makes up no names. What holds of every name of the tables
that go in holds of every name of the table that comes out.

* `nameRules`: every name in a table has a property.
* `Table.Switched.obeys_nameRules`, `Table.Joined.obeys_nameRules`: names are carried over.
* `Table.get?_joinProperties`: the header properties of two tables side by side.
* `Table.obeys_of_merge`, `Table.outcome_complete_eq_ok`: what merging and completing give.
-/

namespace MappingTables

/-- Whether all `names` in some slots have a property. -/
def Names.All (P : String → Prop) (names : Names) : Prop :=
  ∀ name, some name ∈ names.slots → P name

/-- The rules by which every name in a table has a property `P`. -/
def nameRules (P : String → Prop) : EntryRules where
  keyed _ names := names.All P
  parameter names := names.All P

section Names

variable {P : String → Prop} {names : Names}

theorem Names.All.get (h : names.All P) {position : Nat} {name : String}
    (hname : names.get position = some name) : P name :=
  h name (mem_slots_of_get hname)

theorem Names.All.pick (h : names.All P) (positions : List Nat) : (names.pick positions).All P := by
  intro name hname
  obtain ⟨position, -, hget⟩ := List.mem_map.1 hname
  exact h.get hget

theorem Names.All.mono {Q : String → Prop} (h : names.All P) (hQ : ∀ name, P name → Q name) :
    names.All Q :=
  fun name hname => hQ name (h name hname)

theorem Names.All.fill (h : names.All P) (target fallback : Nat) :
    (names.fill target fallback).All P := by
  intro name hname
  unfold Names.fill at hname
  split at hname
  · rcases List.mem_or_eq_of_mem_set hname with hname | hget
    · exact h name hname
    · exact h.get hget.symm
  · exact h name hname

/-- If `P` of a name gives `Q` of it, a table that `Obeys` the `nameRules` of `P` obeys those of
`Q`. -/
theorem Table.Obeys.mono_names {Q : String → Prop} {t : Table} (h : t.Obeys (nameRules P))
    (hQ : ∀ name, P name → Q name) : t.Obeys (nameRules Q) :=
  h.mono {
    keyed := fun _ _ hnames => hnames.mono hQ
    descriptor := fun _ => id
    parameter := fun _ hnames => hnames.mono hQ }

end Names

/-! ## Switching -/

theorem Table.Reordered.obeys_nameRules {P : String → Prop} {t t' : Table} {source : Nat}
    {positions : List Nat} (h : t.Reordered source positions t') (ht : t.Obeys (nameRules P)) :
    t'.Obeys (nameRules P) := by
  have hpick : ∀ names : Names, names.All P → (names.pick positions).All P :=
    fun _ hnames => hnames.pick positions
  exact h.obeys (fun _ names => hpick names) (fun _ => trivial) hpick ht.namesObey

/-- A table that is `Switched` to another source namespace has no names that were not there: it
obeys the `nameRules` that it obeyed before. -/
theorem Table.Switched.obeys_nameRules {P : String → Prop} {t t' : Table} {position : Nat}
    (h : t.Switched position t') (ht : t.Obeys (nameRules P)) : t'.Obeys (nameRules P) := by
  cases h with
  | refl => exact ht
  | reordered _ h => exact h.obeys_nameRules ht

/-! ## Joining -/

namespace Layout

variable {layout : Layout} {P : String → Prop}

theorem mem_besideShared {names : Option Names} {size : Nat} {name : String}
    (h : some name ∈ besideShared names size) : ∃ n ∈ names, some name ∈ n.slots := by
  cases names with
  | none => exact absurd (List.eq_of_mem_replicate h) (Option.some_ne_none name)
  | some n => exact ⟨n, rfl, List.mem_of_mem_tail h⟩

theorem mem_slots {left right : Option Names} {name : String}
    (h : some name ∈ layout.slots left right) :
    (∃ n ∈ left, some name ∈ n.slots) ∨ ∃ n ∈ right, some name ∈ n.slots := by
  have hsource : ∀ {names : Option Names}, names.bind Names.source = some name →
      ∃ n ∈ names, some name ∈ n.slots := by
    intro names hnames
    obtain ⟨n, hn, hsource⟩ := Option.bind_eq_some_iff.1 hnames
    exact ⟨n, hn, Names.mem_slots_of_get hsource⟩
  rw [slots, List.cons_append, List.mem_cons, List.mem_append] at h
  rcases h with h | h | h
  · exact (Option.or_eq_some_iff.1 h.symm).imp hsource fun h => hsource h.2
  · exact .inl (mem_besideShared h)
  · exact .inr (mem_besideShared h)

/-- Names that are `NamesJoined` are those of both entries, and none of them is empty. -/
theorem NamesJoined.all {left right : Option Names} {names : Names}
    (h : layout.NamesJoined left right names) (hleft : ∀ n ∈ left, n.All P)
    (hright : ∀ n ∈ right, n.All P) : names.All fun name => name ≠ "" ∧ P name := by
  intro name hname
  have hne : name ≠ "" := by
    rintro rfl
    exact h.not_empty hname
  rw [h.slots] at hname
  rcases mem_slots hname with ⟨n, hn, hmem⟩ | ⟨n, hn, hmem⟩
  · exact ⟨hne, hleft n hn name hmem⟩
  · exact ⟨hne, hright n hn name hmem⟩

/-- The names of an entry of one side have a property `P`, if the entry follows the rules. -/
theorem all_of_map {α : Type} {names : α → Names} {a : Option α}
    (h : ∀ l ∈ a, (names l).All P) : ∀ n ∈ a.map names, n.All P := by
  intro n hn
  obtain ⟨l, hl, rfl⟩ := Option.map_eq_some_iff.1 hn
  exact h l hl

theorem FieldJoined.obeys {key : MemberKey} {left right : Option Field} {f : Field}
    (h : layout.FieldJoined key left right f) (hleft : ∀ l ∈ left, l.Obeys (nameRules P) key)
    (hright : ∀ r ∈ right, r.Obeys (nameRules P) key) :
    f.Obeys (nameRules fun name => name ≠ "" ∧ P name) key :=
  ⟨h.descriptor, h.names.all (all_of_map fun l hl => (hleft l hl).names)
    (all_of_map fun r hr => (hright r hr).names), trivial⟩

theorem MethodJoined.obeys {key : MemberKey} {left right : Option Method} {m : Method}
    (h : layout.MethodJoined key left right m) (hleft : ∀ l ∈ left, l.Obeys (nameRules P) key)
    (hright : ∀ r ∈ right, r.Obeys (nameRules P) key) :
    m.Obeys (nameRules fun name => name ≠ "" ∧ P name) key := by
  refine ⟨h.descriptor, h.names.all (all_of_map fun l hl => (hleft l hl).names)
    (all_of_map fun r hr => (hright r hr).names), trivial, ?_⟩
  intro e he
  obtain ⟨index, -, rfl, hp⟩ := exists_of_forall₂_of_mem h.parameters he
  exact ⟨hp.index, hp.names.all
    (all_of_map fun l hl => (obeys_of_mem_parameters hleft l hl).names)
    (all_of_map fun r hr => (obeys_of_mem_parameters hright r hr).names)⟩

theorem ClassJoined.obeys {key : String} {left right : Option ClassEntry} {c : ClassEntry}
    (h : layout.ClassJoined left right c) (hleft : ∀ l ∈ left, l.Obeys (nameRules P) key)
    (hright : ∀ r ∈ right, r.Obeys (nameRules P) key) :
    c.Obeys (nameRules fun name => name ≠ "" ∧ P name) key := by
  refine ⟨h.names.all (all_of_map fun l hl => (hleft l hl).names)
    (all_of_map fun r hr => (hright r hr).names), fun e he => ?_, fun e he => ?_⟩
  · obtain ⟨k, -, rfl, hf⟩ := exists_of_forall₂_of_mem h.fields he
    exact hf.obeys (obeys_of_mem_fields hleft) (obeys_of_mem_fields hright)
  · obtain ⟨k, -, rfl, hm⟩ := exists_of_forall₂_of_mem h.methods he
    exact hm.obeys (obeys_of_mem_methods hleft) (obeys_of_mem_methods hright)

end Layout

namespace Table

/-- A table that is `Joined` from two has no names that were not there, and no empty ones. -/
theorem Joined.obeys_nameRules {P : String → Prop} {left right t : Table} (h : Joined left right t)
    (hleft : left.Obeys (nameRules P)) (hright : right.Obeys (nameRules P)) :
    t.Obeys (nameRules fun name => name ≠ "" ∧ P name) := by
  intro e he
  obtain ⟨key, -, rfl, hc⟩ := exists_of_forall₂_of_mem h.classes he
  exact hc.obeys (fun l hl => hleft (e.1, l) (OrderedMap.get?_eq_some_iff.1 hl))
    fun r hr => hright (e.1, r) (OrderedMap.get?_eq_some_iff.1 hr)

/-- `joinProperties` gives the header property of the left table, or else that of the right one. -/
theorem get?_joinProperties (left right : Table) (key : String) :
    (joinProperties left right).get? key =
      (left.properties.get? key).or (right.properties.get? key) := by
  -- on the properties of the right table that are left, for any that were put together so far
  have hfold : ∀ (l : List (String × Option String)) (m : OrderedMap String (Option String)),
      (l.foldl (fun m (e : String × Option String) =>
        if m.contains e.1 then m else m.insert e.1 e.2) m).get? key =
          (m.get? key).or (l.lookup key) := by
    intro l
    induction l with
    | nil => exact fun m => Option.or_none.symm
    | cons e l ih =>
      intro m
      rw [List.foldl_cons, ih, OrderedMap.lookup_cons_ite]
      by_cases hkey : key = e.1
      · subst hkey
        rw [if_pos rfl]
        cases hm : m.get? e.1 with
        | none => simp [OrderedMap.contains, hm, OrderedMap.get?_insert]
        | some value => simp [OrderedMap.contains, hm]
      · rw [if_neg hkey]
        split
        · rfl
        · rw [OrderedMap.get?_insert, if_neg hkey]
  exact hfold right.properties.entries left.properties

theorem mem_joinProperties {left right : Table} {e : String × Option String}
    (h : e ∈ (joinProperties left right).entries) :
    e ∈ left.properties.entries ∨ e ∈ right.properties.entries := by
  have hget := OrderedMap.get?_eq_some_iff.2 h
  rw [get?_joinProperties, Option.or_eq_some_iff] at hget
  exact hget.imp OrderedMap.get?_eq_some_iff.1 fun hget => OrderedMap.get?_eq_some_iff.1 hget.2

/-- `joinProperties` has a key that one of the tables has. -/
theorem contains_joinProperties (left right : Table) (key : String) :
    (joinProperties left right).contains key =
      (left.properties.contains key || right.properties.contains key) := by
  rw [OrderedMap.contains, get?_joinProperties, Option.isSome_or]
  rfl

/-! ## Merging and completing -/

/-- `merge` makes up no names and accepts no empty ones, and the merged table `IsAligned`. -/
theorem obeys_of_merge {P : String → Prop} {a b merged : Table} {conflicts : List Conflict}
    (h : (a.merge b).outcome = .ok (merged, conflicts)) (ha : a.Obeys (nameRules P))
    (hb : b.Obeys (nameRules P)) :
    merged.Obeys (nameRules fun name => name ≠ "" ∧ P name) ∧ merged.IsAligned ∧
      merged.properties = joinProperties a b := by
  obtain ⟨shared, hshared⟩ : ∃ shared, sharedLabels a b = [shared] := by
    unfold merge at h
    split at h
    · next shared hshared => exact ⟨shared, hshared⟩
    · cases h
  obtain ⟨left, right, joined, hleft, hright, hjoined, hmerged⟩ := outcome_merge_eq_ok hshared h
  obtain ⟨_, -, hleft⟩ := switched_of_outcome hleft
  obtain ⟨_, -, hright⟩ := switched_of_outcome hright
  obtain ⟨-, source, rest, -, hreordered⟩ := outcome_reorder_eq_ok_iff.1 hmerged
  -- names are only moved and taken over, and the join refuses an empty one
  have hnames := hjoined.obeys_nameRules (hleft.obeys_nameRules ha) (hright.obeys_nameRules hb)
  refine ⟨hreordered.obeys_nameRules hnames, hreordered.isAligned, ?_⟩
  rw [hreordered.properties, hjoined.properties, joinProperties, hleft.properties_eq,
    hright.properties_eq]
  rfl

/-- `complete` fills in names at one position from another one with `fill`, and counts those that
are `isFillable`. -/
theorem outcome_complete_eq_ok_iff {t t' : Table} {target fallback : String} {count : Nat} :
    (t.complete target fallback).outcome = .ok (t', count) ↔
      ∃ i j, t.namespaces.labels[i]? = some target ∧ t.namespaces.labels[j]? = some fallback ∧
        i ≠ j ∧ t' = t.mapNames (Names.fill i j) ∧
        count = t.allNames.countP (Names.isFillable i j) := by
  rw [complete]
  simp only [Noted.outcome_bind, Noted.outcome_liftM, bind_eq_ok_iff, Namespaces.position_eq_ok_iff]
  constructor
  · rintro ⟨i, hi, j, hj, h⟩
    split at h
    · cases h
    · next hij =>
      cases h
      exact ⟨i, j, hi, hj, hij, rfl, rfl⟩
  · rintro ⟨i, j, hi, hj, hij, rfl, rfl⟩
    exact ⟨i, hi, j, hj, by rw [if_neg hij]; rfl⟩

/-- `complete` fills in names at one position from another one with `fill`. -/
theorem outcome_complete_eq_ok {t t' : Table} {target fallback : String} {count : Nat}
    (h : (t.complete target fallback).outcome = .ok (t', count)) :
    ∃ i j, t.namespaces.labels[i]? = some target ∧ t.namespaces.labels[j]? = some fallback ∧
      i ≠ j ∧ t' = t.mapNames (Names.fill i j) := by
  obtain ⟨i, j, hi, hj, hij, ht', -⟩ := outcome_complete_eq_ok_iff.1 h
  exact ⟨i, j, hi, hj, hij, ht'⟩

end Table

end MappingTables
