import MappingTables.Proofs.Entries
import MappingTables.Proofs.Names

/-!
# Adding entries

What is asked of all entries of a table holds after an entry is added that follows the same rules.
Where an entry is merged into one that is there already, its names are overlaid, so the rules have
to put up with that.

* `EntryRules.Overlays`: rules that put up with overlaid names.
* `Method.Obeys.addParameter`, `ClassEntry.Obeys.addField`, `Table.Obeys.addClass`: what holds after
  adding an entry under a key that is not taken.
* `ClassEntry.addField_of_new`, `ClassEntry.addMethod_of_new`: adding a member under a key that is
  not taken.
* `Method.Obeys.mergeParameter`, `ClassEntry.Obeys.mergeField`, `Table.Obeys.mergeClass`: what holds
  after merging an entry.
-/

namespace MappingTables

variable {rules : EntryRules}

/-- Whether names that follow `rules`, overlaid with others that do, follow them too. -/
structure EntryRules.Overlays (rules : EntryRules) : Prop where
  keyed : ∀ key earlier later, rules.keyed key earlier → rules.keyed key later →
    rules.keyed key (earlier.overlay later)
  parameter : ∀ earlier later, rules.parameter earlier → rules.parameter later →
    rules.parameter (earlier.overlay later)

/-- What holds of all entries holds after `insertNew` of one of which it holds. -/
theorem OrderedMap.forall_mem_insertNew {κ α : Type} [DecidableEq κ] {Q : κ → α → Prop}
    {m m' : OrderedMap κ α} {k : κ} {a : α} (hm : ∀ e ∈ m.entries, Q e.1 e.2) (ha : Q k a)
    (h : insertNew k a m = .ok m') : ∀ e ∈ m'.entries, Q e.1 e.2 := by
  rw [(insertNew_eq_ok_iff.1 h).2, List.forall_mem_append]
  exact ⟨hm, List.forall_mem_singleton.2 ha⟩

/-- A `MemberKey` is made of a source name and a descriptor. -/
theorem memberKey_eq_ok_iff {names : Names} {descriptor : String} {key : MemberKey} :
    (do return ({ name := ← names.requireSource, descriptor } : MemberKey) : Except Failure _) =
      .ok key ↔ names.source = some key.name ∧ descriptor = key.descriptor := by
  simp only [bind_eq_ok_iff, Names.requireSource_eq_ok_iff, pure_eq_ok_iff, MemberKey.ext_iff]
  constructor
  · rintro ⟨name, hname, rfl, hdescriptor⟩
    exact ⟨hname, hdescriptor⟩
  · rintro ⟨hname, hdescriptor⟩
    exact ⟨key.name, hname, rfl, hdescriptor⟩

/-- `Field.key` is made of the source name and the descriptor. -/
theorem Field.key_eq_ok_iff {f : Field} {key : MemberKey} :
    f.key = .ok key ↔ f.names.source = some key.name ∧ f.descriptor = key.descriptor :=
  memberKey_eq_ok_iff

/-- `Method.key` is made of the source name and the descriptor. -/
theorem Method.key_eq_ok_iff {m : Method} {key : MemberKey} :
    m.key = .ok key ↔ m.names.source = some key.name ∧ m.descriptor = key.descriptor :=
  memberKey_eq_ok_iff

/-- `ClassEntry.addField` puts a field under its own key, where there is none. -/
theorem ClassEntry.addField_of_new {c : ClassEntry} {f : Field} {key : MemberKey}
    (hkey : f.key = .ok key) (hnew : c.fields.get? key = none) :
    c.addField f = .ok { c with fields := c.fields.insert key f } := by
  rw [addField, hkey, ok_bind, insertField, OrderedMap.insertNew_of_get?_eq_none hnew]
  rfl

/-- `ClassEntry.addMethod` puts a method under its own key, where there is none. -/
theorem ClassEntry.addMethod_of_new {c : ClassEntry} {m : Method} {key : MemberKey}
    (hkey : m.key = .ok key) (hnew : c.methods.get? key = none) :
    c.addMethod m = .ok { c with methods := c.methods.insert key m } := by
  rw [addMethod, hkey, ok_bind, insertMethod, OrderedMap.insertNew_of_get?_eq_none hnew]
  rfl

/-! ## Parameters of a method -/

namespace Method.Obeys

variable {key : MemberKey} {m m' : Method} {p : Parameter}

/-- `Method.mergedParameter` keeps the `rules`. -/
theorem mergedParameter (hrules : rules.Overlays) (hm : m.Obeys rules key)
    (hp : p.Obeys rules p.index) : (m.mergedParameter p).Obeys rules p.index := by
  rw [Method.mergedParameter]
  cases hold : m.parameters.get? p.index with
  | none => exact hp
  | some old =>
    have hearlier := hm.parameters _ (OrderedMap.get?_eq_some_iff.1 hold)
    exact ⟨hearlier.index_eq, hrules.parameter _ _ hearlier.names hp.names⟩

/-- `Method.addParameter` keeps the `rules`. -/
theorem addParameter (hm : m.Obeys rules key) (hp : p.Obeys rules p.index)
    (h : m.addParameter p = .ok m') : m'.Obeys rules key := by
  obtain ⟨parameters, hparameters, h⟩ := bind_eq_ok_iff.1 h
  cases h
  exact ⟨hm.descriptor_eq, hm.names, hm.descriptor,
    OrderedMap.forall_mem_insertNew hm.parameters hp hparameters⟩

/-- `Method.mergeParameter` keeps the `rules`. -/
theorem mergeParameter (hrules : rules.Overlays) (hm : m.Obeys rules key)
    (hp : p.Obeys rules p.index) : (m.mergeParameter p).Obeys rules key :=
  ⟨hm.descriptor_eq, hm.names, hm.descriptor,
    OrderedMap.forall_mem_insert hm.parameters (hm.mergedParameter hrules hp)⟩

end Method.Obeys

/-! ## Members of a class -/

namespace ClassEntry.Obeys

variable {owner : String} {key : MemberKey} {c c' : ClassEntry} {f : Field} {m : Method}

/-- `ClassEntry.mergedField` keeps the `rules`. -/
theorem mergedField (hrules : rules.Overlays) (hc : c.Obeys rules owner) (hf : f.Obeys rules key) :
    (c.mergedField key f).Obeys rules key := by
  rw [ClassEntry.mergedField]
  cases hold : c.fields.get? key with
  | none => exact hf
  | some old =>
    have hearlier := hc.fields _ (OrderedMap.get?_eq_some_iff.1 hold)
    exact ⟨hearlier.descriptor_eq, hrules.keyed _ _ _ hearlier.names hf.names, hearlier.descriptor⟩

/-- `ClassEntry.mergedMethod` keeps the `rules`. -/
theorem mergedMethod (hrules : rules.Overlays) (hc : c.Obeys rules owner)
    (hm : m.Obeys rules key) : (c.mergedMethod key m).Obeys rules key := by
  rw [ClassEntry.mergedMethod]
  cases hold : c.methods.get? key with
  | none => exact hm
  | some old =>
    have hearlier := hc.methods _ (OrderedMap.get?_eq_some_iff.1 hold)
    exact ⟨hearlier.descriptor_eq, hrules.keyed _ _ _ hearlier.names hm.names, hearlier.descriptor,
      hearlier.parameters⟩

/-- `ClassEntry.addField` keeps the `rules`, if the field follows them under its own key. -/
theorem addField (hc : c.Obeys rules owner) (hf : ∀ key, f.key = .ok key → f.Obeys rules key)
    (h : c.addField f = .ok c') : c'.Obeys rules owner := by
  obtain ⟨key, hkey, h⟩ := bind_eq_ok_iff.1 h
  obtain ⟨fields, hfields, h⟩ := bind_eq_ok_iff.1 h
  cases h
  exact ⟨hc.names, OrderedMap.forall_mem_insertNew hc.fields (hf key hkey) hfields, hc.methods⟩

/-- `ClassEntry.addMethod` keeps the `rules`, if the method follows them under its own key. -/
theorem addMethod (hc : c.Obeys rules owner) (hm : ∀ key, m.key = .ok key → m.Obeys rules key)
    (h : c.addMethod m = .ok c') : c'.Obeys rules owner := by
  obtain ⟨key, hkey, h⟩ := bind_eq_ok_iff.1 h
  obtain ⟨methods, hmethods, h⟩ := bind_eq_ok_iff.1 h
  cases h
  exact ⟨hc.names, hc.fields, OrderedMap.forall_mem_insertNew hc.methods (hm key hkey) hmethods⟩

/-- `ClassEntry.mergeField` keeps the `rules`, if the field follows them under its own key. -/
theorem mergeField (hrules : rules.Overlays) (hc : c.Obeys rules owner)
    (hf : ∀ key, f.key = .ok key → f.Obeys rules key) (h : c.mergeField f = .ok c') :
    c'.Obeys rules owner := by
  obtain ⟨key, hkey, h⟩ := bind_eq_ok_iff.1 h
  cases h
  have hmerged := hc.mergedField hrules (hf key hkey)
  exact ⟨hc.names, OrderedMap.forall_mem_insert hc.fields hmerged, hc.methods⟩

/-- `ClassEntry.mergeMethod` keeps the `rules`, if the method follows them under its own key. -/
theorem mergeMethod (hrules : rules.Overlays) (hc : c.Obeys rules owner)
    (hm : ∀ key, m.key = .ok key → m.Obeys rules key) (h : c.mergeMethod m = .ok c') :
    c'.Obeys rules owner := by
  obtain ⟨key, hkey, h⟩ := bind_eq_ok_iff.1 h
  cases h
  have hmerged := hc.mergedMethod hrules (hm key hkey)
  exact ⟨hc.names, hc.fields, OrderedMap.forall_mem_insert hc.methods hmerged⟩

end ClassEntry.Obeys

/-! ## Classes of a table -/

namespace Table.Obeys

variable {key : String} {t t' : Table} {c : ClassEntry}

/-- `Table.mergedClass` keeps the `rules`. -/
theorem mergedClass (hrules : rules.Overlays) (ht : t.Obeys rules) (hc : c.Obeys rules key) :
    (t.mergedClass key c).Obeys rules key := by
  rw [Table.mergedClass]
  cases hold : t.classes.get? key with
  | none => exact hc
  | some old =>
    have hearlier := ht _ (OrderedMap.get?_eq_some_iff.1 hold)
    exact ⟨hrules.keyed _ _ _ hearlier.names hc.names, hearlier.fields, hearlier.methods⟩

/-- `Table.addClass` keeps the `rules`, if the class follows them under its own key. -/
theorem addClass (ht : t.Obeys rules)
    (hc : ∀ key, c.names.source = some key → c.Obeys rules key) (h : t.addClass c = .ok t') :
    t'.Obeys rules := by
  obtain ⟨key, hkey, h⟩ := bind_eq_ok_iff.1 h
  obtain ⟨-, -, h⟩ := bind_eq_ok_iff.1 h
  obtain ⟨classes, hclasses, h⟩ := bind_eq_ok_iff.1 h
  cases h
  have hadded := hc key (Names.requireSource_eq_ok_iff.1 hkey)
  exact OrderedMap.forall_mem_insertNew ht hadded hclasses

/-- `Table.mergeClass` keeps the `rules`, if the class follows them under its own key. -/
theorem mergeClass (hrules : rules.Overlays) (ht : t.Obeys rules)
    (hc : ∀ key, c.names.source = some key → c.Obeys rules key) (h : t.mergeClass c = .ok t') :
    t'.Obeys rules := by
  obtain ⟨-, -, h⟩ := bind_eq_ok_iff.1 h
  obtain ⟨key, hkey, h⟩ := bind_eq_ok_iff.1 h
  cases h
  have hmerged := ht.mergedClass hrules (hc key (Names.requireSource_eq_ok_iff.1 hkey))
  exact OrderedMap.forall_mem_insert ht hmerged

end Table.Obeys

end MappingTables
