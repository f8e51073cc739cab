import MappingTables.Complete
import MappingTables.Proofs.Entries

/-!
# Changing all names of a table

A function on names can be applied to all entries of a table, whose keys and descriptors stay.

* `Table.mapNames`: the table with its names changed.
* `Table.Obeys.mapNames`: what holds of the entries afterwards.
* `Table.mapNames_eq_self`, `Table.Obeys.of_equiv_mapNames`: a table stays the same exactly if all
  its names do.
-/

namespace MappingTables

section MapNames

variable (f : Names → Names)

/-- The parameter with its names changed by `f`. -/
def Parameter.mapNames (p : Parameter) : Parameter :=
  { p with names := f p.names }

/-- The field with its names changed by `f`. -/
def Field.mapNames (g : Field) : Field :=
  { g with names := f g.names }

/-- The method with all names in it changed by `f`. -/
def Method.mapNames (m : Method) : Method :=
  { m with
    names := f m.names
    parameters := m.parameters.map (Parameter.mapNames f) }

/-- The class with all names in it changed by `f`. -/
def ClassEntry.mapNames (c : ClassEntry) : ClassEntry :=
  { c with
    names := f c.names
    fields := c.fields.map (Field.mapNames f)
    methods := c.methods.map (Method.mapNames f) }

/-- The table with all names in it changed by `f`. -/
def Table.mapNames (t : Table) : Table :=
  { t with classes := t.classes.map (ClassEntry.mapNames f) }

end MapNames

/-- What is in a map after `map` changed its values. -/
theorem OrderedMap.mem_entries_map {κ α β : Type} {f : α → β} {m : OrderedMap κ α} {k : κ} {b : β} :
    (k, b) ∈ (m.map f).entries ↔ ∃ a, (k, a) ∈ m.entries ∧ f a = b := by
  simp [OrderedMap.map]

/-- A map stays as it is by `map` if each of its values does. -/
theorem OrderedMap.map_eq_self {κ α : Type} {f : α → α} {m : OrderedMap κ α}
    (h : ∀ e ∈ m.entries, f e.2 = e.2) : m.map f = m := by
  refine OrderedMap.ext ?_
  calc m.entries.map (fun e => (e.1, f e.2)) = m.entries.map id :=
        List.map_congr_left fun e he => by rw [h e he]; rfl
    _ = m.entries := List.map_id _

section Obeys

variable {f : Names → Names} {r r' : EntryRules}

theorem Parameter.Obeys.mapNames {index : UInt64} {p : Parameter} (h : p.Obeys r index)
    (hparameter : ∀ names, r.parameter names → r'.parameter (f names)) :
    (p.mapNames f).Obeys r' index :=
  ⟨h.index_eq, hparameter _ h.names⟩

variable (hkeyed : ∀ key names, r.keyed key names → r'.keyed key (f names))
  (hdescriptor : ∀ descriptor, r.descriptor descriptor → r'.descriptor descriptor)

include hkeyed hdescriptor

theorem Field.Obeys.mapNames {key : MemberKey} {g : Field} (h : g.Obeys r key) :
    (g.mapNames f).Obeys r' key :=
  ⟨h.descriptor_eq, hkeyed _ _ h.names, hdescriptor _ h.descriptor⟩

variable (hparameter : ∀ names, r.parameter names → r'.parameter (f names))

include hparameter

theorem Method.Obeys.mapNames {key : MemberKey} {m : Method} (h : m.Obeys r key) :
    (m.mapNames f).Obeys r' key := by
  refine ⟨h.descriptor_eq, hkeyed _ _ h.names, hdescriptor _ h.descriptor, ?_⟩
  rintro ⟨index, p⟩ he
  obtain ⟨p, hp, rfl⟩ := OrderedMap.mem_entries_map.1 he
  exact (h.parameters _ hp).mapNames hparameter

theorem ClassEntry.Obeys.mapNames {key : String} {c : ClassEntry} (h : c.Obeys r key) :
    (c.mapNames f).Obeys r' key := by
  refine ⟨hkeyed _ _ h.names, ?_, ?_⟩
  · rintro ⟨key, g⟩ he
    obtain ⟨g, hg, rfl⟩ := OrderedMap.mem_entries_map.1 he
    exact (h.fields _ hg).mapNames hkeyed hdescriptor
  · rintro ⟨key, m⟩ he
    obtain ⟨m, hm, rfl⟩ := OrderedMap.mem_entries_map.1 he
    exact (h.methods _ hm).mapNames hkeyed hdescriptor hparameter

/-- The rules that a table `Obeys` after `mapNames` changed its names. -/
theorem Table.Obeys.mapNames {t : Table} (h : t.Obeys r) : (t.mapNames f).Obeys r' := by
  rintro ⟨key, c⟩ he
  obtain ⟨c, hc, rfl⟩ := OrderedMap.mem_entries_map.1 he
  exact (h _ hc).mapNames hkeyed hdescriptor hparameter

end Obeys

/-! ## Names that stay as they are -/

/-- The rules by which names stay as they are when `f` changes them. -/
def fixedRules (f : Names → Names) : EntryRules where
  keyed _ names := f names = names
  parameter names := f names = names

section Fixed

variable {f : Names → Names}

theorem Parameter.mapNames_eq_self {index : UInt64} {p : Parameter}
    (h : p.Obeys (fixedRules f) index) : p.mapNames f = p :=
  Parameter.ext rfl h.names rfl

theorem Field.mapNames_eq_self {key : MemberKey} {g : Field} (h : g.Obeys (fixedRules f) key) :
    g.mapNames f = g :=
  Field.ext rfl h.names rfl

theorem Method.mapNames_eq_self {key : MemberKey} {m : Method} (h : m.Obeys (fixedRules f) key) :
    m.mapNames f = m := by
  refine Method.ext rfl h.names rfl (OrderedMap.map_eq_self fun e he => ?_)
  exact Parameter.mapNames_eq_self (h.parameters e he)

theorem ClassEntry.mapNames_eq_self {key : String} {c : ClassEntry}
    (h : c.Obeys (fixedRules f) key) : c.mapNames f = c := by
  refine ClassEntry.ext h.names rfl (OrderedMap.map_eq_self fun e he => ?_)
    (OrderedMap.map_eq_self fun e he => ?_)
  · exact Field.mapNames_eq_self (h.fields e he)
  · exact Method.mapNames_eq_self (h.methods e he)

/-- `mapNames` leaves a table as it is if it leaves all its names so. -/
theorem Table.mapNames_eq_self {t : Table} (h : t.Obeys (fixedRules f)) : t.mapNames f = t :=
  Table.ext rfl rfl (OrderedMap.map_eq_self fun e he => ClassEntry.mapNames_eq_self (h e he))

variable {r : EntryRules}

/-- If `mapNames` gives a method that is `equiv`, all names stay as they are: the method obeys
`fixedRules`. -/
theorem Method.Obeys.of_equiv_mapNames {key : MemberKey} {m : Method} (h : m.Obeys r key)
    (heq : (m.mapNames f).equiv m = true) : m.Obeys (fixedRules f) key := by
  obtain ⟨-, hnames, -, hparameters⟩ := Method.equiv_iff.1 heq
  refine ⟨h.descriptor_eq, hnames, trivial, ?_⟩
  rintro ⟨index, p⟩ he
  have hp := hparameters index
  rw [Method.mapNames, OrderedMap.get?_map, OrderedMap.get?_eq_some_iff.2 he, Option.map_some,
    Option.some.injEq] at hp
  exact ⟨(h.parameters _ he).index_eq, congrArg Parameter.names hp⟩

/-- If `mapNames` gives a class that is `equiv`, all names stay as they are: the class obeys
`fixedRules`. -/
theorem ClassEntry.Obeys.of_equiv_mapNames {key : String} {c : ClassEntry} (h : c.Obeys r key)
    (heq : (c.mapNames f).equiv c = true) : c.Obeys (fixedRules f) key := by
  obtain ⟨hnames, -, hfields, hmethods⟩ := ClassEntry.equiv_iff.1 heq
  refine ⟨hnames, ?_, ?_⟩
  · rintro ⟨key, g⟩ he
    have hg := hfields key
    rw [ClassEntry.mapNames, OrderedMap.get?_map, OrderedMap.get?_eq_some_iff.2 he, Option.map_some,
      Option.some.injEq] at hg
    exact ⟨(h.fields _ he).descriptor_eq, congrArg Field.names hg, trivial⟩
  · rintro ⟨key, m⟩ he
    have hm := hmethods key
    rw [ClassEntry.mapNames, OrderedMap.get?_map, OrderedMap.get?_eq_some_iff.2 he, Option.map_some,
      Option.rel_some_some] at hm
    exact (h.methods _ he).of_equiv_mapNames hm

/-- If `mapNames` gives a table that is `equiv`, all names stay as they are: the table obeys
`fixedRules`. -/
theorem Table.Obeys.of_equiv_mapNames {t : Table} (h : t.Obeys r)
    (heq : (t.mapNames f).equiv t = true) : t.Obeys (fixedRules f) := by
  obtain ⟨-, -, hclasses⟩ := Table.equiv_iff.1 heq
  rintro ⟨key, c⟩ he
  have hc := hclasses key
  rw [Table.mapNames, OrderedMap.get?_map, OrderedMap.get?_eq_some_iff.2 he, Option.map_some,
    Option.rel_some_some] at hc
  exact (h _ he).of_equiv_mapNames hc

end Fixed

end MappingTables
