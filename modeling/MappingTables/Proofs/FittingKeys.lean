import MappingTables.Proofs.Places

/-!
# Keys that fit

A parameter stands under an index and has one itself. Merging goes by the index that it stands
under, so that tables in which the two differ are merged as if they did not. Only the keys of
classes, fields and methods have to fit.

* `Table.KeysFit`: keys agree with names and descriptors, and nothing is asked of indices.
* `Table.keysFit_iff`: what that is for each entry.
* `Table.IsAligned.keysFit`, `Table.Switched.keysFit`: tables whose keys fit.
-/

namespace MappingTables.Table

variable {t : Table} {p : Place} {names : Names}

/-- If a table `NamesObey` rules, they hold of the names at every place. -/
theorem NamesObey.at {rules : EntryRules} (h : t.NamesObey rules) (hnames : names ∈ t.namesAt p) :
    (∀ key ∈ p.keyName?, rules.keyed key names) ∧ (p.keyName? = none → rules.parameter names) := by
  -- one case for each kind of place, found from the class downwards
  cases p with
  | classEntry key =>
    obtain ⟨c, hc, rfl⟩ := Option.map_eq_some_iff.1 hnames
    have hc := h _ (OrderedMap.get?_eq_some_iff.1 hc)
    exact ⟨fun _ hkey => Option.some.inj hkey ▸ hc.1, nofun⟩
  | field owner key =>
    obtain ⟨f, hf, rfl⟩ := Option.map_eq_some_iff.1 hnames
    obtain ⟨c, hc, hf⟩ := mem_entryOf_map_iff.1 hf
    have hf := (h _ (OrderedMap.get?_eq_some_iff.1 hc)).2.1 _ hf
    exact ⟨fun _ hkey => Option.some.inj hkey ▸ hf, nofun⟩
  | method owner key =>
    obtain ⟨m, hm, rfl⟩ := Option.map_eq_some_iff.1 hnames
    obtain ⟨c, hc, hm⟩ := mem_entryOf_map_iff.1 hm
    have hm := (h _ (OrderedMap.get?_eq_some_iff.1 hc)).2.2 _ hm
    exact ⟨fun _ hkey => Option.some.inj hkey ▸ hm.1, nofun⟩
  | parameter owner key index =>
    obtain ⟨parameter, hp, rfl⟩ := Option.map_eq_some_iff.1 hnames
    obtain ⟨m, hm, hp⟩ := mem_entryOf_map_iff.1 hp
    obtain ⟨c, hc, hm⟩ := mem_entryOf_map_iff.1 hm
    have hm := (h _ (OrderedMap.get?_eq_some_iff.1 hc)).2.2 _ hm
    exact ⟨nofun, fun _ => hm.2 _ hp⟩

/-- Whether every entry of a table has a slot for each namespace, and it `IsWellKeyed`: the key of
every class, field and method holds its source name, where there is one, and its descriptor. -/
structure KeysFit (t : Table) : Prop where
  size : ∀ p, ∀ names ∈ t.namesAt p, names.size = t.namespaces.size
  wellKeyed : t.IsWellKeyed
  field : ∀ owner key, ∀ f ∈ t.field? owner key, f.descriptor = key.descriptor
  method : ∀ owner key, ∀ m ∈ t.method? owner key, m.descriptor = key.descriptor

namespace KeysFit

theorem size_eq (h : t.KeysFit) (hnames : names ∈ t.namesAt p) : names.size = t.namespaces.size :=
  h.size p names hnames

/-- If `KeysFit`, a source name is the one in the key. -/
theorem nameAt_source (h : t.KeysFit) {key name : String} (hkey : key ∈ p.keyName?)
    (hname : t.nameAt t.namespaces.source p = some name) : name = key :=
  h.wellKeyed p key hkey name hname

end KeysFit

/-- `KeysFit` holds exactly if the names of all entries have a slot for each namespace and agree
with the keys, and so do descriptors. -/
theorem keysFit_iff : t.KeysFit ↔ t.NamesObey (alignedRules t.namespaces.size) ∧
    ∀ e ∈ t.classes.entries, (∀ f ∈ e.2.fields.entries, f.2.descriptor = f.1.descriptor) ∧
      ∀ m ∈ e.2.methods.entries, m.2.descriptor = m.1.descriptor := by
  constructor
  · intro h
    -- in a table, the source name of an entry is the name in the namespace that comes first
    have hkeyed : ∀ p : Place, ∀ key ∈ p.keyName?, ∀ names ∈ t.namesAt p,
        (alignedRules t.namespaces.size).keyed key names := by
      intro p key hkey names hnames
      refine ⟨h.size_eq hnames, fun name hname => h.nameAt_source hkey ?_⟩
      rw [nameAt, Option.mem_def.1 hnames, Option.bind_some,
        Namespaces.nameIn_eq_get t.namespaces.getElem?_zero]
      exact hname
    constructor
    · rintro ⟨owner, c⟩ hc
      refine ⟨hkeyed _ owner rfl _ (namesAt_classEntry hc), ?_, ?_⟩
      · rintro ⟨key, f⟩ hf
        exact hkeyed _ key.name rfl _ (namesAt_field hc hf)
      · rintro ⟨key, m⟩ hm
        obtain ⟨hmethod, hnames⟩ := namesAt_method hc hm
        refine ⟨hkeyed _ key.name rfl _ hnames, ?_⟩
        rintro ⟨index, parameter⟩ hp
        exact h.size_eq (namesAt_parameter hmethod hp)
    · rintro ⟨owner, c⟩ hc
      refine ⟨?_, ?_⟩
      · rintro ⟨key, f⟩ hf
        exact h.field owner key f (mem_entryOf_map_iff.2 ⟨c, OrderedMap.get?_eq_some_iff.2 hc, hf⟩)
      · rintro ⟨key, m⟩ hm
        exact h.method owner key m (namesAt_method hc hm).1
  · rintro ⟨hnames, hdescriptors⟩
    refine ⟨fun p names hp => ?_, fun p key hkey name hname => ?_, fun owner key f hf => ?_,
      fun owner key m hm => ?_⟩
    · cases hkey : p.keyName? with
      | none => exact (hnames.at hp).2 hkey
      | some key => exact ((hnames.at hp).1 key hkey).1
    · obtain ⟨names, hp, hname⟩ := Option.bind_eq_some_iff.1 hname
      rw [Namespaces.nameIn_eq_get t.namespaces.getElem?_zero] at hname
      exact ((hnames.at hp).1 key hkey).2 name hname
    · obtain ⟨c, hc, hf⟩ := mem_entryOf_map_iff.1 hf
      exact (hdescriptors _ (OrderedMap.get?_eq_some_iff.1 hc)).1 _ hf
    · obtain ⟨c, hc, hm⟩ := mem_entryOf_map_iff.1 hm
      exact (hdescriptors _ (OrderedMap.get?_eq_some_iff.1 hc)).2 _ hm

instance (t : Table) : Decidable (t.NamesObey (alignedRules t.namespaces.size)) :=
  inferInstanceAs (Decidable (∀ _ ∈ _, _))

instance (t : Table) : Decidable t.KeysFit :=
  decidable_of_iff _ keysFit_iff.symm

/-- The keys of a table that `IsAligned` fit. -/
theorem IsAligned.keysFit (h : t.IsAligned) : t.KeysFit where
  size _ _ := h.size_eq
  wellKeyed := h.isWellKeyed
  field _ _ _ hf := (Obeys.field? h hf).descriptor_eq
  method _ _ _ hm := (Obeys.method? h hm).descriptor_eq

/-- The keys of a table fit after it was `Switched` to another source namespace, since keys are made
from the new names. -/
theorem Switched.keysFit {t' : Table} {position : Nat} (h : t.Switched position t')
    (ht : t.KeysFit) : t'.KeysFit := by
  cases h with
  | refl => exact ht
  | reordered _ h =>
    -- parameters are put under their indices then, too
    exact h.isAligned.keysFit

end MappingTables.Table
