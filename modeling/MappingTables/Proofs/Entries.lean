import MappingTables.Proofs.OrderedMap
import MappingTables.Table

/-!
# What holds of all entries of a table

Keys stand apart from names and descriptors in a table, and what ties them together is said here.

* `Table.Obeys`: every entry has the descriptor or index of its key, and follows the given rules.
* `Table.descriptors`: the descriptors of all its fields and methods.
* `Table.sorted`: the table with all its entries in ascending order of their keys.
* `Table.equiv_sorted`, `Table.Obeys.of_equiv`: the order of entries does not matter.
-/

namespace MappingTables

/-- What is asked of the entries of a table. -/
structure EntryRules where
  /-- Of the name in the key of a class, field or method, and its names. -/
  keyed : String → Names → Prop := fun _ _ => True
  /-- Of the descriptor of a field or method. -/
  descriptor : String → Prop := fun _ => True
  /-- Of the names of a parameter. -/
  parameter : Names → Prop := fun _ => True

/-- Whether the rules `r'` follow from `r`. -/
structure EntryRules.Implies (r r' : EntryRules) : Prop where
  keyed : ∀ key names, r.keyed key names → r'.keyed key names
  descriptor : ∀ descriptor, r.descriptor descriptor → r'.descriptor descriptor
  parameter : ∀ names, r.parameter names → r'.parameter names

/-- Whether a parameter under an `index` has that index and follows the rules. -/
structure Parameter.Obeys (r : EntryRules) (index : UInt64) (p : Parameter) : Prop where
  index_eq : p.index = index
  names : r.parameter p.names

/-- Whether a field under a `key` has the descriptor in it and follows the rules. -/
structure Field.Obeys (r : EntryRules) (key : MemberKey) (f : Field) : Prop where
  descriptor_eq : f.descriptor = key.descriptor
  names : r.keyed key.name f.names
  descriptor : r.descriptor key.descriptor

/-- Whether a method under a `key` has the descriptor in it and follows the rules, and so do its
parameters. -/
structure Method.Obeys (r : EntryRules) (key : MemberKey) (m : Method) : Prop where
  descriptor_eq : m.descriptor = key.descriptor
  names : r.keyed key.name m.names
  descriptor : r.descriptor key.descriptor
  parameters : ∀ e ∈ m.parameters.entries, e.2.Obeys r e.1

/-- Whether a class under a `key` follows the rules, and so do its members. -/
structure ClassEntry.Obeys (r : EntryRules) (key : String) (c : ClassEntry) : Prop where
  names : r.keyed key c.names
  fields : ∀ e ∈ c.fields.entries, e.2.Obeys r e.1
  methods : ∀ e ∈ c.methods.entries, e.2.Obeys r e.1

/-- Whether all entries of a table follow the rules `r`. -/
def Table.Obeys (r : EntryRules) (t : Table) : Prop :=
  ∀ e ∈ t.classes.entries, e.2.Obeys r e.1

section Decidable

variable (r : EntryRules) [∀ key names, Decidable (r.keyed key names)]
  [∀ descriptor, Decidable (r.descriptor descriptor)] [∀ names, Decidable (r.parameter names)]

instance (index : UInt64) (p : Parameter) : Decidable (p.Obeys r index) :=
  decidable_of_iff (p.index = index ∧ r.parameter p.names)
    ⟨fun h => ⟨h.1, h.2⟩, fun h => ⟨h.1, h.2⟩⟩

instance (key : MemberKey) (f : Field) : Decidable (f.Obeys r key) :=
  decidable_of_iff
    (f.descriptor = key.descriptor ∧ r.keyed key.name f.names ∧ r.descriptor key.descriptor)
    ⟨fun h => ⟨h.1, h.2.1, h.2.2⟩, fun h => ⟨h.1, h.2, h.3⟩⟩

instance (key : MemberKey) (m : Method) : Decidable (m.Obeys r key) :=
  decidable_of_iff
    (m.descriptor = key.descriptor ∧ r.keyed key.name m.names ∧ r.descriptor key.descriptor ∧
      ∀ e ∈ m.parameters.entries, e.2.Obeys r e.1)
    ⟨fun h => ⟨h.1, h.2.1, h.2.2.1, h.2.2.2⟩, fun h => ⟨h.1, h.2, h.3, h.4⟩⟩

instance (key : String) (c : ClassEntry) : Decidable (c.Obeys r key) :=
  decidable_of_iff
    (r.keyed key c.names ∧ (∀ e ∈ c.fields.entries, e.2.Obeys r e.1) ∧
      ∀ e ∈ c.methods.entries, e.2.Obeys r e.1)
    ⟨fun h => ⟨h.1, h.2.1, h.2.2⟩, fun h => ⟨h.1, h.2, h.3⟩⟩

instance (t : Table) : Decidable (t.Obeys r) :=
  inferInstanceAs (Decidable (∀ e ∈ t.classes.entries, e.2.Obeys r e.1))

end Decidable

/-! ## Fewer rules -/

section Mono

variable {r r' : EntryRules}

/-- What `Parameter.Obeys` rules obeys all that they imply. -/
theorem Parameter.Obeys.mono {index : UInt64} {p : Parameter} (h : p.Obeys r index)
    (hr : r.Implies r') : p.Obeys r' index :=
  ⟨h.index_eq, hr.parameter _ h.names⟩

/-- What `Field.Obeys` rules obeys all that they imply. -/
theorem Field.Obeys.mono {key : MemberKey} {f : Field} (h : f.Obeys r key) (hr : r.Implies r') :
    f.Obeys r' key :=
  ⟨h.descriptor_eq, hr.keyed _ _ h.names, hr.descriptor _ h.descriptor⟩

/-- What `Method.Obeys` rules obeys all that they imply. -/
theorem Method.Obeys.mono {key : MemberKey} {m : Method} (h : m.Obeys r key) (hr : r.Implies r') :
    m.Obeys r' key :=
  ⟨h.descriptor_eq, hr.keyed _ _ h.names, hr.descriptor _ h.descriptor,
    fun e he => (h.parameters e he).mono hr⟩

/-- What `ClassEntry.Obeys` rules obeys all that they imply. -/
theorem ClassEntry.Obeys.mono {key : String} {c : ClassEntry} (h : c.Obeys r key)
    (hr : r.Implies r') : c.Obeys r' key :=
  ⟨hr.keyed _ _ h.names, fun e he => (h.fields e he).mono hr, fun e he => (h.methods e he).mono hr⟩

/-- What `Table.Obeys` rules obeys all that they imply. -/
theorem Table.Obeys.mono {t : Table} (h : t.Obeys r) (hr : r.Implies r') : t.Obeys r' :=
  fun e he => (h e he).mono hr

/-- What two sets of `EntryRules` ask together. -/
def EntryRules.and (r r' : EntryRules) : EntryRules where
  keyed key names := r.keyed key names ∧ r'.keyed key names
  descriptor descriptor := r.descriptor descriptor ∧ r'.descriptor descriptor
  parameter names := r.parameter names ∧ r'.parameter names

/-- A method obeys `r.and r'` if it obeys both. -/
theorem Method.Obeys.and {key : MemberKey} {m : Method} (h : m.Obeys r key) (h' : m.Obeys r' key) :
    m.Obeys (r.and r') key :=
  ⟨h.descriptor_eq, ⟨h.names, h'.names⟩, ⟨h.descriptor, h'.descriptor⟩, fun e he =>
    ⟨(h.parameters e he).index_eq, (h.parameters e he).names, (h'.parameters e he).names⟩⟩

/-- A class obeys `r.and r'` if it obeys both. -/
theorem ClassEntry.Obeys.and {key : String} {c : ClassEntry} (h : c.Obeys r key)
    (h' : c.Obeys r' key) : c.Obeys (r.and r') key :=
  ⟨⟨h.names, h'.names⟩, fun e he => ⟨(h.fields e he).descriptor_eq,
    ⟨(h.fields e he).names, (h'.fields e he).names⟩,
    ⟨(h.fields e he).descriptor, (h'.fields e he).descriptor⟩⟩,
    fun e he => (h.methods e he).and (h'.methods e he)⟩

/-- A table obeys `r.and r'` if it obeys both. -/
theorem Table.Obeys.and {t : Table} (h : t.Obeys r) (h' : t.Obeys r') : t.Obeys (r.and r') :=
  fun e he => (h e he).and (h' e he)

end Mono

/-! ## Descriptors -/

/-- The descriptors of the members of a class, of its `fields` and then of its `methods`. -/
def ClassEntry.descriptors (c : ClassEntry) : List String :=
  c.fields.entries.map (fun e => e.2.descriptor) ++ c.methods.entries.map fun e => e.2.descriptor

/-- The `ClassEntry.descriptors` of all classes of a table. -/
def Table.descriptors (t : Table) : List String :=
  t.classes.entries.flatMap fun e => e.2.descriptors

section Descriptors

variable {r : EntryRules} {t : Table}

theorem ClassEntry.Obeys.of_mem_descriptors {key descriptor : String} {c : ClassEntry}
    (h : c.Obeys r key) (hmem : descriptor ∈ c.descriptors) : r.descriptor descriptor := by
  obtain hmem | hmem := List.mem_append.1 hmem
  · obtain ⟨e, he, rfl⟩ := List.mem_map.1 hmem
    rw [(h.fields e he).descriptor_eq]
    exact (h.fields e he).descriptor
  · obtain ⟨e, he, rfl⟩ := List.mem_map.1 hmem
    rw [(h.methods e he).descriptor_eq]
    exact (h.methods e he).descriptor

/-- All `descriptors` of a table that obeys rules follow them. -/
theorem Table.Obeys.of_mem_descriptors (h : t.Obeys r) {descriptor : String}
    (hmem : descriptor ∈ t.descriptors) : r.descriptor descriptor := by
  obtain ⟨e, he, hmem⟩ := List.mem_flatMap.1 hmem
  exact (h e he).of_mem_descriptors hmem

/-- What holds of all `descriptors` can be asked of the entries besides. -/
theorem Table.Obeys.with_descriptors (h : t.Obeys r) {D : String → Prop}
    (hD : ∀ descriptor ∈ t.descriptors, D descriptor) : t.Obeys { r with descriptor := D } := by
  intro e he
  have hmem : ∀ descriptor ∈ e.2.descriptors, D descriptor := fun descriptor hdescriptor =>
    hD descriptor (List.mem_flatMap.2 ⟨e, he, hdescriptor⟩)
  refine ⟨(h e he).names, fun f hf => ?_, fun m hm => ?_⟩
  · have hobeys := (h e he).fields f hf
    refine ⟨hobeys.descriptor_eq, hobeys.names, hobeys.descriptor_eq ▸ ?_⟩
    exact hmem _ (List.mem_append_left _ (List.mem_map_of_mem hf))
  · have hobeys := (h e he).methods m hm
    refine ⟨hobeys.descriptor_eq, hobeys.names, hobeys.descriptor_eq ▸ ?_, fun p hp => ?_⟩
    · exact hmem _ (List.mem_append_right _ (List.mem_map_of_mem hm))
    · exact ⟨(hobeys.parameters p hp).index_eq, (hobeys.parameters p hp).names⟩

end Descriptors

/-! ## Ascending order -/

/-- The method with its `parameters` in ascending order of their indices. -/
def Method.sorted (m : Method) : Method :=
  { m with parameters := m.parameters.sortedMap indexLe }

/-- The class with its `fields` and `methods` in ascending order of their keys, by
`MemberKey.le`. -/
def ClassEntry.sorted (c : ClassEntry) : ClassEntry :=
  { c with
    fields := c.fields.sortedMap MemberKey.le
    methods := (c.methods.map Method.sorted).sortedMap MemberKey.le }

/-- The table with its `classes` in ascending order of their keys, each of them as by
`ClassEntry.sorted`, and its properties in the order in which they are. -/
def Table.sorted (t : Table) : Table :=
  { t with classes := (t.classes.map ClassEntry.sorted).sortedMap textLe }

/-- Texts are ordered by `textLe`. -/
theorem isKeyOrder_textLe : IsKeyOrder textLe where
  trans _ _ _ hab hbc :=
    decide_eq_true (String.le_trans (of_decide_eq_true hab) (of_decide_eq_true hbc))
  total a b := by
    rw [textLe, textLe, Bool.or_eq_true, decide_eq_true_iff, decide_eq_true_iff]
    exact String.le_total a b
  antisymm _ _ hab hba := String.le_antisymm (of_decide_eq_true hab) (of_decide_eq_true hba)

/-- Indices are ordered by `indexLe`. -/
theorem isKeyOrder_indexLe : IsKeyOrder indexLe where
  trans _ _ _ hab hbc :=
    decide_eq_true (UInt64.le_trans (of_decide_eq_true hab) (of_decide_eq_true hbc))
  total a b := by
    rw [indexLe, indexLe, Bool.or_eq_true, decide_eq_true_iff, decide_eq_true_iff]
    exact UInt64.le_total a b
  antisymm _ _ hab hba := UInt64.le_antisymm (of_decide_eq_true hab) (of_decide_eq_true hba)

/-- One `MemberKey` comes before another one if its name does, or if its name is the same and its
descriptor does. -/
theorem MemberKey.le_iff {a b : MemberKey} :
    a.le b ↔ (a.name ≠ b.name ∧ a.name ≤ b.name) ∨
      (a.name = b.name ∧ a.descriptor ≤ b.descriptor) := by
  unfold MemberKey.le
  split
  · next h => simp [h]
  · next h => simp [h]

/-- Keys of members are ordered by `MemberKey.le`. -/
theorem isKeyOrder_memberKey : IsKeyOrder MemberKey.le where
  trans a b c hab hbc := by
    -- names decide, unless they are the same
    rw [MemberKey.le_iff] at *
    rcases hab with ⟨hne, hab⟩ | ⟨hab, hab'⟩
    · rcases hbc with ⟨hne', hbc⟩ | ⟨hbc, -⟩
      · refine .inl ⟨fun hac => ?_, String.le_trans hab hbc⟩
        exact hne (String.le_antisymm hab (hac ▸ hbc))
      · exact .inl ⟨hbc ▸ hne, hbc ▸ hab⟩
    · rcases hbc with ⟨hne', hbc⟩ | ⟨hbc, hbc'⟩
      · exact .inl ⟨hab ▸ hne', hab ▸ hbc⟩
      · exact .inr ⟨hab.trans hbc, String.le_trans hab' hbc'⟩
  total a b := by
    rw [Bool.or_eq_true, MemberKey.le_iff, MemberKey.le_iff]
    by_cases h : a.name = b.name
    · exact (String.le_total a.descriptor b.descriptor).imp (.inr ⟨h, ·⟩) (.inr ⟨h.symm, ·⟩)
    · exact (String.le_total a.name b.name).imp (.inl ⟨h, ·⟩) (.inl ⟨Ne.symm h, ·⟩)
  antisymm a b hab hba := by
    rw [MemberKey.le_iff] at *
    rcases hab with ⟨hne, hab⟩ | ⟨hab, hab'⟩
    · rcases hba with ⟨-, hba⟩ | ⟨hba, -⟩
      · exact absurd (String.le_antisymm hab hba) hne
      · exact absurd hba.symm hne
    · rcases hba with ⟨hne, -⟩ | ⟨-, hba'⟩
      · exact absurd hab.symm hne
      · exact MemberKey.ext hab (String.le_antisymm hab' hba')

/-- Whether the members of a class, and the parameters of its methods, stand in ascending order of
their keys. -/
structure ClassEntry.IsAscending (c : ClassEntry) : Prop where
  fields : c.fields.keys.Pairwise (MemberKey.le · ·)
  methods : c.methods.keys.Pairwise (MemberKey.le · ·)
  parameters : ∀ e ∈ c.methods.entries, e.2.parameters.keys.Pairwise (indexLe · ·)

/-- Whether all entries of a table stand in ascending order of their keys: its `classes`, and what
is in each of these, by `ClassEntry.IsAscending`. -/
structure Table.IsAscending (t : Table) : Prop where
  classes : t.classes.keys.Pairwise (textLe · ·)
  members : ∀ e ∈ t.classes.entries, e.2.IsAscending

/-- A `sorted` class `IsAscending`. -/
theorem ClassEntry.isAscending_sorted (c : ClassEntry) : c.sorted.IsAscending := by
  refine ⟨OrderedMap.pairwise_keys_sorted isKeyOrder_memberKey c.fields,
    OrderedMap.pairwise_keys_sorted isKeyOrder_memberKey _, fun e he => ?_⟩
  obtain ⟨⟨key, m⟩, -, rfl⟩ := List.mem_map.1 (OrderedMap.mem_sorted.1 he)
  exact OrderedMap.pairwise_keys_sorted isKeyOrder_indexLe m.parameters

/-- A `sorted` table `IsAscending`. -/
theorem Table.isAscending_sorted (t : Table) : t.sorted.IsAscending := by
  refine ⟨OrderedMap.pairwise_keys_sorted isKeyOrder_textLe _, fun e he => ?_⟩
  obtain ⟨⟨key, c⟩, -, rfl⟩ := List.mem_map.1 (OrderedMap.mem_sorted.1 he)
  exact c.isAscending_sorted

/-! ## Equality but for the order -/

/-- `Method.equiv` holds exactly if the methods agree and hold the same parameters. -/
theorem Method.equiv_iff {m n : Method} :
    m.equiv n = true ↔ m.descriptor = n.descriptor ∧ m.names = n.names ∧ m.comment = n.comment ∧
      ∀ index, m.parameters.get? index = n.parameters.get? index := by
  simp only [Method.equiv, Bool.and_eq_true, beq_iff_eq, OrderedMap.equiv_beq_iff, and_assoc]

/-- `ClassEntry.equiv` holds exactly if the classes agree and hold the same members. -/
theorem ClassEntry.equiv_iff {c d : ClassEntry} :
    c.equiv d = true ↔ c.names = d.names ∧ c.comment = d.comment ∧
      (∀ key, c.fields.get? key = d.fields.get? key) ∧
      ∀ key, Option.Rel (fun m n => Method.equiv m n = true) (c.methods.get? key)
        (d.methods.get? key) := by
  simp only [ClassEntry.equiv, Bool.and_eq_true, beq_iff_eq, OrderedMap.equiv_iff,
    OrderedMap.rel_eq_iff, and_assoc]

/-- `Table.equiv` holds exactly if the tables agree and hold the same classes and properties. -/
theorem Table.equiv_iff {s t : Table} :
    s.equiv t = true ↔ s.namespaces = t.namespaces ∧
      (∀ key, s.properties.get? key = t.properties.get? key) ∧
      ∀ key, Option.Rel (fun c d => ClassEntry.equiv c d = true) (s.classes.get? key)
        (t.classes.get? key) := by
  simp only [Table.equiv, Bool.and_eq_true, beq_iff_eq, OrderedMap.equiv_iff,
    OrderedMap.rel_eq_iff, and_assoc]

/-- `Option.Rel` of a symmetric relation is symmetric. -/
theorem rel_symm {α : Type} {r : α → α → Prop} (h : ∀ a b, r a b → r b a) {a b : Option α}
    (hab : Option.Rel r a b) : Option.Rel r b a := by
  cases hab with
  | none => exact .none
  | some hab => exact .some (h _ _ hab)

/-- `Option.Rel` of a transitive relation is transitive. -/
theorem rel_trans {α : Type} {r : α → α → Prop} (h : ∀ a b c, r a b → r b c → r a c)
    {a b c : Option α} (hab : Option.Rel r a b) (hbc : Option.Rel r b c) : Option.Rel r a c := by
  cases hab with
  | none => exact hbc
  | some hab =>
    cases hbc with
    | some hbc => exact .some (h _ _ _ hab hbc)

theorem Method.equiv_refl (m : Method) : m.equiv m = true :=
  Method.equiv_iff.2 ⟨rfl, rfl, rfl, fun _ => rfl⟩

theorem Method.equiv_symm (m n : Method) (h : m.equiv n = true) : n.equiv m = true := by
  rw [Method.equiv_iff] at *
  obtain ⟨hdescriptor, hnames, hcomment, hparameters⟩ := h
  exact ⟨hdescriptor.symm, hnames.symm, hcomment.symm, fun index => (hparameters index).symm⟩

theorem Method.equiv_trans (l m n : Method) (h : l.equiv m = true) (h' : m.equiv n = true) :
    l.equiv n = true := by
  rw [Method.equiv_iff] at *
  obtain ⟨hdescriptor, hnames, hcomment, hparameters⟩ := h
  obtain ⟨hdescriptor', hnames', hcomment', hparameters'⟩ := h'
  exact ⟨hdescriptor.trans hdescriptor', hnames.trans hnames', hcomment.trans hcomment',
    fun index => (hparameters index).trans (hparameters' index)⟩

theorem ClassEntry.equiv_refl (c : ClassEntry) : c.equiv c = true := by
  refine ClassEntry.equiv_iff.2 ⟨rfl, rfl, fun _ => rfl, fun key => ?_⟩
  cases c.methods.get? key with
  | none => exact .none
  | some m => exact .some m.equiv_refl

theorem ClassEntry.equiv_symm (c d : ClassEntry) (h : c.equiv d = true) : d.equiv c = true := by
  rw [ClassEntry.equiv_iff] at *
  obtain ⟨hnames, hcomment, hfields, hmethods⟩ := h
  exact ⟨hnames.symm, hcomment.symm, fun key => (hfields key).symm,
    fun key => rel_symm Method.equiv_symm (hmethods key)⟩

theorem ClassEntry.equiv_trans (b c d : ClassEntry) (h : b.equiv c = true)
    (h' : c.equiv d = true) : b.equiv d = true := by
  rw [ClassEntry.equiv_iff] at *
  obtain ⟨hnames, hcomment, hfields, hmethods⟩ := h
  obtain ⟨hnames', hcomment', hfields', hmethods'⟩ := h'
  exact ⟨hnames.trans hnames', hcomment.trans hcomment',
    fun key => (hfields key).trans (hfields' key),
    fun key => rel_trans Method.equiv_trans (hmethods key) (hmethods' key)⟩

/-- `Table.equiv` goes both ways. -/
theorem Table.equiv_symm {s t : Table} (h : s.equiv t = true) : t.equiv s = true := by
  rw [Table.equiv_iff] at *
  obtain ⟨hnamespaces, hproperties, hclasses⟩ := h
  exact ⟨hnamespaces.symm, fun key => (hproperties key).symm,
    fun key => rel_symm ClassEntry.equiv_symm (hclasses key)⟩

/-- `Table.equiv` goes over a third table. -/
theorem Table.equiv_trans {r s t : Table} (h : r.equiv s = true) (h' : s.equiv t = true) :
    r.equiv t = true := by
  rw [Table.equiv_iff] at *
  obtain ⟨hnamespaces, hproperties, hclasses⟩ := h
  obtain ⟨hnamespaces', hproperties', hclasses'⟩ := h'
  exact ⟨hnamespaces.trans hnamespaces', fun key => (hproperties key).trans (hproperties' key),
    fun key => rel_trans ClassEntry.equiv_trans (hclasses key) (hclasses' key)⟩

/-- A method is `equiv` to itself with its parameters `sorted`. -/
theorem Method.equiv_sorted (m : Method) : m.sorted.equiv m = true := by
  rw [Method.equiv_iff]
  exact ⟨rfl, rfl, rfl, OrderedMap.get?_sortedMap indexLe m.parameters⟩

/-- A class is `equiv` to itself with its members `sorted`. -/
theorem ClassEntry.equiv_sorted (c : ClassEntry) : c.sorted.equiv c = true := by
  rw [ClassEntry.equiv_iff]
  refine ⟨rfl, rfl, OrderedMap.get?_sortedMap MemberKey.le c.fields, fun key => ?_⟩
  rw [sorted, OrderedMap.get?_sortedMap, OrderedMap.get?_map]
  cases c.methods.get? key with
  | none => exact .none
  | some m => exact .some m.equiv_sorted

/-- A table is `equiv` to itself `sorted`. -/
theorem Table.equiv_sorted (t : Table) : t.sorted.equiv t = true := by
  rw [Table.equiv_iff]
  refine ⟨rfl, fun key => rfl, fun key => ?_⟩
  rw [sorted, OrderedMap.get?_sortedMap, OrderedMap.get?_map]
  cases t.classes.get? key with
  | none => exact .none
  | some c => exact .some c.equiv_sorted

section Equiv

variable {r : EntryRules}

/-- The order of parameters does not matter for rules that a method obeys. -/
theorem Method.Obeys.of_equiv {key : MemberKey} {m n : Method} (h : m.Obeys r key)
    (heq : m.equiv n = true) : n.Obeys r key := by
  obtain ⟨hdesc, hnames, -, hparams⟩ := Method.equiv_iff.1 heq
  refine ⟨hdesc ▸ h.descriptor_eq, hnames ▸ h.names, h.descriptor, fun e he => ?_⟩
  exact h.parameters e ((OrderedMap.mem_entries_iff_of_get?_eq hparams).2 he)

/-- The order of members does not matter for rules that a class obeys. -/
theorem ClassEntry.Obeys.of_equiv {key : String} {c d : ClassEntry} (h : c.Obeys r key)
    (heq : c.equiv d = true) : d.Obeys r key := by
  obtain ⟨hnames, -, hfields, hmethods⟩ := ClassEntry.equiv_iff.1 heq
  refine ⟨hnames ▸ h.names, fun e he => ?_, fun e he => ?_⟩
  · exact h.fields e ((OrderedMap.mem_entries_iff_of_get?_eq hfields).2 he)
  · obtain ⟨m, hm, heq⟩ := OrderedMap.exists_mem_of_rel hmethods he
    exact (h.methods _ hm).of_equiv heq

/-- The order of entries does not matter for rules that a table obeys. -/
theorem Table.Obeys.of_equiv {s t : Table} (h : s.Obeys r) (heq : s.equiv t = true) :
    t.Obeys r := by
  obtain ⟨-, -, hclasses⟩ := Table.equiv_iff.1 heq
  intro e he
  obtain ⟨c, hc, heq⟩ := OrderedMap.exists_mem_of_rel hclasses he
  exact (h _ hc).of_equiv heq

end Equiv

/-- `checkSlots` succeeds exactly if there is a slot for each namespace. -/
theorem Table.checkSlots_eq_ok_iff {t : Table} {names : Names} {u : Unit} :
    t.checkSlots names = .ok u ↔ names.size = t.namespaces.size := by
  rw [checkSlots]
  split
  · next h => exact ⟨fun _ => h, fun _ => rfl⟩
  · next h => exact ⟨nofun, fun hsize => absurd hsize h⟩

end MappingTables
