import MappingTables.Proofs.Reorder

/-!
# Exchanging the source namespace

* `Table.IsAligned`: every entry has a slot for each namespace, and its key agrees with it.
* `Table.KeysAgree`: every key agrees with its entry, however many slots that has.
* `Table.IsNamed`: every class, field and method has a name in a namespace.
* `Table.Reordered.isAligned`: reordering aligns a table, whatever its keys were.
* `Table.Switched`: a table with another source namespace.
-/

namespace MappingTables

/-- What is asked of the entries of a table with aligned keys: a slot for each namespace, and, where
there is a source name, the one in the key. -/
def alignedRules (size : Nat) : EntryRules where
  keyed key names := names.size = size ∧ ∀ name ∈ names.source, name = key
  parameter names := names.size = size

/-- Whether a table follows the `alignedRules`: every entry has a slot for each namespace, every key
holds the source name, where there is one, and the descriptor of its entry, and parameters are keyed
by their indices. -/
def Table.IsAligned (t : Table) : Prop :=
  t.Obeys (alignedRules t.namespaces.size)

instance (size : Nat) (key : String) (names : Names) :
    Decidable ((alignedRules size).keyed key names) :=
  inferInstanceAs (Decidable (_ ∧ _))

instance (size : Nat) (descriptor : String) :
    Decidable ((alignedRules size).descriptor descriptor) :=
  inferInstanceAs (Decidable True)

instance (size : Nat) (names : Names) : Decidable ((alignedRules size).parameter names) :=
  inferInstanceAs (Decidable (_ = _))

instance (t : Table) : Decidable t.IsAligned :=
  inferInstanceAs (Decidable (t.Obeys _))

/-- What is asked of the entries of a table in which keys agree with names: where there is a source
name, it is the one in the key. -/
def agreeingRules : EntryRules where
  keyed key names := ∀ name ∈ names.source, name = key

/-- Whether a table follows the `agreeingRules`: every key holds the source name, where there is
one, and the descriptor of its entry, and parameters are keyed by their indices. -/
def Table.KeysAgree (t : Table) : Prop :=
  t.Obeys agreeingRules

instance (key : String) (names : Names) : Decidable (agreeingRules.keyed key names) :=
  inferInstanceAs (Decidable (∀ name ∈ names.source, name = key))

instance (descriptor : String) : Decidable (agreeingRules.descriptor descriptor) :=
  inferInstanceAs (Decidable True)

instance (names : Names) : Decidable (agreeingRules.parameter names) :=
  inferInstanceAs (Decidable True)

instance (t : Table) : Decidable t.KeysAgree :=
  inferInstanceAs (Decidable (t.Obeys _))

/-- `KeysAgree` holds of a table that `IsAligned`. -/
theorem Table.IsAligned.keysAgree {t : Table} (h : t.IsAligned) : t.KeysAgree :=
  Obeys.mono h
    { keyed := fun _ _ hnames => hnames.2
      descriptor := fun _ => id
      parameter := fun _ _ => trivial }

/-- Whether the names of all entries of a table follow the `rules`, whatever else the keys say. -/
def Table.NamesObey (rules : EntryRules) (t : Table) : Prop :=
  ∀ e ∈ t.classes.entries, rules.keyed e.1 e.2.names ∧
    (∀ f ∈ e.2.fields.entries, rules.keyed f.1.name f.2.names) ∧
    ∀ m ∈ e.2.methods.entries, rules.keyed m.1.name m.2.names ∧
      ∀ p ∈ m.2.parameters.entries, rules.parameter p.2.names

/-- `NamesObey` holds of a table that `Obeys` rules. -/
theorem Table.Obeys.namesObey {rules : EntryRules} {t : Table} (h : t.Obeys rules) :
    t.NamesObey rules :=
  fun e he => ⟨(h e he).names, fun f hf => ((h e he).fields f hf).names, fun m hm =>
    ⟨((h e he).methods m hm).names, fun p hp => (((h e he).methods m hm).parameters p hp).names⟩⟩

section Reordered

variable {r : Renaming} {positions : List Nat} {rules rules' : EntryRules}
  (hkeyed : ∀ key names, rules.keyed key names →
    rules'.keyed (newKey (names.pick positions) key) (names.pick positions))
  (hdescriptor : ∀ descriptor, rules'.descriptor descriptor)
  (hparameter : ∀ names, rules.parameter names → rules'.parameter (names.pick positions))

include hkeyed hdescriptor

/-- The rules that a field follows after it was `Reordered`. Nothing can be asked of its
descriptor. -/
theorem Field.Reordered.obeys {f f' : Field} {key : MemberKey} (h : f.Reordered r positions f')
    (hnames : rules.keyed key.name f.names) :
    f'.Obeys rules' { name := newKey f'.names key.name, descriptor := f'.descriptor } :=
  ⟨rfl, h.names ▸ hkeyed _ _ hnames, hdescriptor _⟩

include hparameter

/-- The rules that a method follows after it was `Reordered`. Nothing can be asked of its
descriptor. -/
theorem Method.Reordered.obeys {m m' : Method} {key : MemberKey} (h : m.Reordered r positions m')
    (hnames : rules.keyed key.name m.names)
    (hparameters : ∀ p ∈ m.parameters.entries, rules.parameter p.2.names) :
    m'.Obeys rules' { name := newKey m'.names key.name, descriptor := m'.descriptor } := by
  refine ⟨rfl, h.names ▸ hkeyed _ _ hnames, hdescriptor _, fun e he => ?_⟩
  obtain ⟨e', he', rfl⟩ := exists_of_forall₂_of_mem h.parameters he
  exact ⟨rfl, hparameter _ (hparameters e' he')⟩

/-- The rules that a table follows after it was `Reordered`. Its keys are made from the new names
and descriptors, so that it does not matter what the old keys said of these. -/
theorem Table.Reordered.obeys {t t' : Table} {source : Nat} (h : t.Reordered source positions t')
    (ht : t.NamesObey rules) : t'.Obeys rules' := by
  intro e he
  obtain ⟨e', he', hc, hkey⟩ := exists_of_forall₂_of_mem h.classes he
  obtain ⟨hnames, hfields, hmethods⟩ := ht e' he'
  rw [hkey]
  refine ⟨hc.names ▸ hkeyed _ _ hnames, fun f hf => ?_, fun m hm => ?_⟩
  · obtain ⟨f', hf', hreordered, hkey⟩ := exists_of_forall₂_of_mem hc.fields hf
    rw [hkey]
    exact hreordered.obeys hkeyed hdescriptor (hfields f' hf')
  · obtain ⟨m', hm', hreordered, hkey⟩ := exists_of_forall₂_of_mem hc.methods hm
    rw [hkey]
    exact hreordered.obeys hkeyed hdescriptor hparameter (hmethods m' hm').1 (hmethods m' hm').2

end Reordered

/-- A table that was `Reordered` `IsAligned`, since its entries are keyed by their new names. -/
theorem Table.Reordered.isAligned {t t' : Table} {source : Nat} {positions : List Nat}
    (h : t.Reordered source positions t') : t'.IsAligned := by
  have hsize : t'.namespaces.size = positions.length := by
    rw [Namespaces.size, h.namespaces, List.length_map]
  -- the new key is the source name, if there is one, whatever the old key was
  have hkeyed : ∀ key (names : Names), (alignedRules positions.length).keyed
      (newKey (names.pick positions) key) (names.pick positions) := by
    intro key names
    refine ⟨names.size_pick positions, fun name hname => ?_⟩
    rw [newKey, Option.mem_def.1 hname]
    rfl
  rw [IsAligned, hsize]
  -- nothing is asked of the names before
  exact h.obeys (fun key names (_ : EntryRules.keyed {} key names) => hkeyed key names)
    (fun _ => trivial) (fun names _ => names.size_pick positions)
    fun _ _ => ⟨trivial, fun _ _ => trivial, fun _ _ => ⟨trivial, fun _ _ => trivial⟩⟩

/-! ## The order of namespaces -/

namespace Namespaces

/-- The name of an entry in the namespace with a `label`. -/
def nameIn (ns : Namespaces) (label : String) (names : Names) : Option String :=
  (ns.labels.idxOf? label).bind names.get

/-- `nameIn` a namespace finds what `get` finds in the slot at its position. -/
theorem nameIn_eq_get {ns : Namespaces} {label : String} {i : Nat} (h : ns.labels[i]? = some label)
    (names : Names) : ns.nameIn label names = names.get i := by
  have hposition := position_eq_ok_iff.2 h
  unfold position at hposition
  split at hposition
  · next j hj =>
    rw [nameIn, hj, Option.bind_some, Except.ok.inj hposition]
  · cases hposition

/-- `label` gives the label at a position. -/
theorem getElem?_labels {ns : Namespaces} {i : Nat} (h : i < ns.size) :
    ns.labels[i]? = some (ns.label i) := by
  rw [label, List.getD_eq_getElem?_getD, List.getElem?_eq_getElem h]
  rfl

/-- `positions` gives the positions of labels, one for each. -/
theorem positions_eq_ok_iff {ns : Namespaces} {labels : List String} {positions : List Nat} :
    ns.positions labels = .ok positions ↔
      List.Forall₂ (fun label i => ns.labels[i]? = some label) labels positions := by
  simp only [Namespaces.positions, mapM_eq_ok_iff, position_eq_ok_iff]

/-- The labels at the `positions` of labels are these labels. -/
theorem map_label_of_positions {ns : Namespaces} {labels : List String} {positions : List Nat}
    (h : ns.positions labels = .ok positions) : positions.map ns.label = labels := by
  rw [positions_eq_ok_iff] at h
  induction h with
  | nil => rfl
  | cons hlabel _ ih =>
    rw [List.map_cons, ih, label, List.getD_eq_getElem?_getD, hlabel]
    rfl

end Namespaces

/-- The slots that `pick` takes are those of the namespaces at the `positions`. -/
theorem Names.slots_pick_of_positions {ns : Namespaces} {labels : List String}
    {positions : List Nat} (h : ns.positions labels = .ok positions) (names : Names) :
    (names.pick positions).slots = labels.map (ns.nameIn · names) := by
  change positions.map names.get = _
  have hpositions := Namespaces.positions_eq_ok_iff.1 h
  clear h
  induction hpositions with
  | nil => rfl
  | cons hlabel _ ih => rw [List.map_cons, List.map_cons, ih, Namespaces.nameIn_eq_get hlabel]

/-- `positions` finds labels that a table has. -/
theorem Namespaces.exists_positions {ns : Namespaces} {labels : List String}
    (h : ∀ label ∈ labels, label ∈ ns.labels) :
    ∃ positions, ns.positions labels = .ok positions := by
  simp only [positions_eq_ok_iff]
  induction labels with
  | nil => exact ⟨[], .nil⟩
  | cons label labels ih =>
    obtain ⟨i, hi⟩ := List.mem_iff_getElem?.1 (h label List.mem_cons_self)
    obtain ⟨positions, hpositions⟩ := ih fun label hlabel => h label (List.mem_cons_of_mem _ hlabel)
    exact ⟨i :: positions, .cons hi hpositions⟩

/-- A label that is asked for stands at some place of the request, and its position at the same
place of the `positions`. -/
theorem Namespaces.exists_position_of_mem {ns : Namespaces} {labels : List String}
    {positions : List Nat} {label : String} (hpositions : ns.positions labels = .ok positions)
    (hlabel : label ∈ labels) :
    ∃ i j : Nat, labels[i]? = some label ∧ positions[i]? = some j ∧ ns.labels[j]? = some label := by
  have hrel := positions_eq_ok_iff.1 hpositions
  clear hpositions
  induction hrel with
  | nil => cases hlabel
  | @cons label' j _ _ hj _ ih =>
    obtain rfl | hlabel := List.mem_cons.1 hlabel
    · exact ⟨0, j, rfl, rfl, hj⟩
    · obtain ⟨i, j, hi, hposition, hj⟩ := ih hlabel
      exact ⟨i + 1, j, hi, hposition, hj⟩

/-- `nameIn` a namespace finds the same before and after `pick`. -/
theorem Namespaces.nameIn_pick {ns ns' : Namespaces} {labels : List String} {positions : List Nat}
    {label : String} (hpositions : ns.positions labels = .ok positions) (hns' : ns'.labels = labels)
    (hlabel : label ∈ labels) (names : Names) :
    ns'.nameIn label (names.pick positions) = ns.nameIn label names := by
  obtain ⟨i, j, hi, hposition, hj⟩ := exists_position_of_mem hpositions hlabel
  rw [nameIn_eq_get (hns' ▸ hi), nameIn_eq_get hj, Names.get_pick hposition]

/-- Labels that are asked for can be asked for again. The `positions` where they stand by then are
those of their positions before. -/
theorem Namespaces.exists_positions_of_subset {ns ns' : Namespaces} {labels labels' : List String}
    {positions : List Nat} (hpositions : ns.positions labels = .ok positions)
    (hns' : ns'.labels = labels) (hsubset : labels' ⊆ labels) : ∃ chosen composed,
      ns'.positions labels' = .ok chosen ∧ ns.positions labels' = .ok composed ∧
        List.Forall₂ (fun i j => positions[i]? = some j) chosen composed := by
  simp only [positions_eq_ok_iff, hns']
  induction labels' with
  | nil => exact ⟨[], [], .nil, .nil, .nil⟩
  | cons label labels' ih =>
    obtain ⟨hlabel, hsubset⟩ := List.cons_subset.1 hsubset
    obtain ⟨chosen, composed, hchosen, hcomposed, hrel⟩ := ih hsubset
    obtain ⟨i, j, hi, hposition, hj⟩ := exists_position_of_mem hpositions hlabel
    exact ⟨i :: chosen, j :: composed, .cons hi hchosen, .cons hj hcomposed, .cons hposition hrel⟩

/-! ## Names in a namespace -/

/-- What is asked of the entries of a table that all have names in the namespace with a `label`. -/
def namedRules (ns : Namespaces) (label : String) : EntryRules where
  keyed _ names := ns.nameIn label names ≠ none

/-- Whether every class, field and method of a table has a name in a namespace, by the
`namedRules`. -/
def Table.IsNamed (t : Table) (label : String) : Prop :=
  t.Obeys (namedRules t.namespaces label)

section Decidable

variable (ns : Namespaces) (label : String)

instance (key : String) (names : Names) : Decidable ((namedRules ns label).keyed key names) :=
  inferInstanceAs (Decidable (_ ≠ none))

instance (descriptor : String) : Decidable ((namedRules ns label).descriptor descriptor) :=
  inferInstanceAs (Decidable True)

instance (names : Names) : Decidable ((namedRules ns label).parameter names) :=
  inferInstanceAs (Decidable True)

instance (t : Table) : Decidable (t.IsNamed label) :=
  inferInstanceAs (Decidable (t.Obeys _))

end Decidable

/-! ## Exchanging two positions -/

/-- A `position` after exchanging the first one and another one. -/
def exchange (position i : Nat) : Nat :=
  if i = 0 then position else if i = position then 0 else i

/-- `exchange` twice changes nothing. -/
@[simp]
theorem exchange_exchange (position i : Nat) : exchange position (exchange position i) = i := by
  unfold exchange
  grind

/-- `exchange` stays within the positions. -/
theorem exchange_lt {size position i : Nat} (hposition : position < size) (hi : i < size) :
    exchange position i < size := by
  unfold exchange
  grind

/-- What stands at a position of the positions that are `exchanged`. -/
theorem getElem?_exchanged {size position i : Nat} (h : i < size) :
    (Table.exchanged size position)[i]? = some (exchange position i) := by
  rw [Table.exchanged, List.getElem?_map, List.getElem?_range h]
  rfl

/-- What comes first of the positions that are `exchanged`. -/
theorem getElem?_exchanged_zero {size position : Nat} (h : position < size) :
    (Table.exchanged size position)[0]? = some position :=
  getElem?_exchanged (Nat.zero_lt_of_lt h)

/-- There are as many positions after they are `exchanged` as before. -/
@[simp]
theorem length_exchanged (size position : Nat) : (Table.exchanged size position).length = size := by
  rw [Table.exchanged, List.length_map, List.length_range]

namespace Table

/-- Whether a table has another source namespace, given by its position, than the table `t`, and is
the same otherwise. -/
inductive Switched (t : Table) : Nat → Table → Prop where
  | refl : Switched t 0 t
  | reordered {position : Nat} {t' : Table} (hne : position ≠ 0)
      (h : t.Reordered position (exchanged t.namespaces.size position) t') : Switched t position t'

/-- `switchSource` gives a table that is `Switched` to another source namespace. -/
theorem switched_of_outcome {t t' : Table} {label : String}
    (h : (t.switchSource label).outcome = .ok t') :
    ∃ position, t.namespaces.labels[position]? = some label ∧ t.Switched position t' := by
  obtain ⟨position, hlabel, ⟨rfl, rfl⟩ | ⟨hne, h⟩⟩ := outcome_switchSource_eq_ok_iff.1 h
  · exact ⟨0, hlabel, .refl⟩
  · exact ⟨position, hlabel, .reordered hne h⟩

namespace Switched

variable {t t' : Table} {position : Nat}

/-- A table that is `Switched` still `IsAligned` if it did before. -/
theorem isAligned (h : t.Switched position t') (ht : t.IsAligned) : t'.IsAligned := by
  cases h with
  | refl => exact ht
  | reordered _ h => exact h.isAligned

/-- A table that is `Switched` has as many namespaces as before. -/
theorem size_eq (h : t.Switched position t') : t'.namespaces.size = t.namespaces.size := by
  cases h with
  | refl => rfl
  | reordered _ h => rw [Namespaces.size, h.namespaces, List.length_map, length_exchanged]

/-- A table that is `Switched` has the `properties` from before. -/
theorem properties_eq (h : t.Switched position t') : t'.properties = t.properties := by
  cases h with
  | refl => rfl
  | reordered _ h => exact h.properties

/-- The label at a position of a table that is `Switched`. -/
theorem getElem?_labels (h : t.Switched position t') (hposition : position < t.namespaces.size)
    {i : Nat} (hi : i < t.namespaces.size) :
    t'.namespaces.labels[i]? = t.namespaces.labels[exchange position i]? := by
  cases h with
  | refl =>
    have hrefl : exchange 0 i = i := by
      unfold exchange
      grind
    rw [hrefl]
  | reordered _ h =>
    rw [h.namespaces, List.getElem?_map, getElem?_exchanged hi,
      Namespaces.getElem?_labels (exchange_lt hposition hi)]
    rfl

/-- A table that is `Switched` has the `labels` from before. -/
theorem mem_labels_iff (h : t.Switched position t') (hposition : position < t.namespaces.size)
    {label : String} : label ∈ t'.namespaces.labels ↔ label ∈ t.namespaces.labels := by
  rw [List.mem_iff_getElem?, List.mem_iff_getElem?]
  constructor
  · rintro ⟨i, hi⟩
    have hlt : i < t.namespaces.size := by
      rw [← h.size_eq]
      exact (List.getElem?_eq_some_iff.1 hi).1
    exact ⟨exchange position i, (h.getElem?_labels hposition hlt) ▸ hi⟩
  · rintro ⟨i, hi⟩
    have hlt : i < t.namespaces.size := (List.getElem?_eq_some_iff.1 hi).1
    refine ⟨exchange position i, ?_⟩
    rw [h.getElem?_labels hposition (exchange_lt hposition hlt), exchange_exchange, hi]

/-- The `labels` of a table that is `Switched` are those before in another order. -/
theorem perm_labels (h : t.Switched position t') (hposition : position < t.namespaces.size) :
    t'.namespaces.labels.Perm t.namespaces.labels :=
  (List.perm_ext_iff_of_nodup t'.namespaces.valid.2.2 t.namespaces.valid.2.2).2 fun _ =>
    h.mem_labels_iff hposition

/-- The label of the new source namespace comes first in a table that is `Switched`. -/
theorem getElem?_labels_zero (h : t.Switched position t') {label : String}
    (hlabel : t.namespaces.labels[position]? = some label) :
    t'.namespaces.labels[0]? = some label := by
  have hposition : position < t.namespaces.size := (List.getElem?_eq_some_iff.1 hlabel).1
  rw [h.getElem?_labels hposition (Nat.lt_of_le_of_lt (Nat.zero_le _) hposition),
    exchange, if_pos rfl, hlabel]

end Switched

end Table

end MappingTables
