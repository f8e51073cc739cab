import MappingTables.Proofs.SameSource

/-!
# Keys and names after reordering

What reordering a table gives is said by the labels that are asked for, without positions: each
entry stands where it stood, under a new key, with its names in the namespaces that were asked for.

* `Table.InPlace`: a table in place of another one.
* `Table.Refuses`: what a request can be refused for.
* `Table.outcome_reorder_iff_inPlace`: a request gives a table in place of the old one.
* `Table.reorder_inPlace_or_refused`: it fails for these reasons only.
-/

namespace MappingTables

/-- There is a map whose entries `f` makes of those of another one exactly if no two of these get
the same key. -/
theorem OrderedMap.exists_entries_eq_map_iff {κ κ' α β : Type} {m : OrderedMap κ α}
    {f : κ × α → κ' × β} :
    (∃ n : OrderedMap κ' β, n.entries = m.entries.map f) ↔
      ∀ e ∈ m.entries, ∀ e' ∈ m.entries, (f e).1 = (f e').1 → e.1 = e'.1 := by
  -- a function leaves one value for each entry, so only the keys can be in the way
  have hrel := OrderedMap.exists_rekeyed_iff (m := m) (k := fun e => (f e).1)
    (R := fun e a => a = (f e).2)
  simp only [exists_eq, implies_true, true_and] at hrel
  rw [← hrel]
  refine exists_congr fun n => ?_
  simp only [← Prod.ext_iff]
  rw [forall₂_iff_map (P := fun _ => True) (f := f) fun _ _ _ => (and_iff_right trivial).symm]
  simp

/-! ## New names -/

namespace Table

section Request

variable (t : Table) (labels : List String)

/-- The name of an entry in the first namespace that is asked for, or its `old` one if it has none
there. -/
def newName (names : Names) (old : String) : String :=
  (t.namespaces.nameIn (labels.headD "") names).getD old

/-- The `names` of an entry in the namespaces that are asked for. -/
def namesIn (names : Names) : Names :=
  { slots := labels.map fun label => t.namespaces.nameIn label names }

/-- What a class `name` becomes: the new name of the class with that key, if there is one. -/
def newClassName (name : String) : String :=
  match t.classes.get? name with
  | some c => t.newName labels c.names name
  | none => name

/-- The `descriptor` with new class names. It stays if a class name in it does not end. -/
def newDescriptor (descriptor : String) : String :=
  (Descriptor.map (t.newClassName labels) descriptor).toOption.getD descriptor

/-- The new key of a field or method, of the `newName` and the `newDescriptor`. -/
def newMemberKey (names : Names) (old : MemberKey) : MemberKey where
  name := t.newName labels names old.name
  descriptor := t.newDescriptor labels old.descriptor

/-- The field under its `newMemberKey`. -/
def newField (e : MemberKey × Field) : MemberKey × Field :=
  (t.newMemberKey labels e.2.names e.1,
    { e.2.mapNames (t.namesIn labels) with descriptor := t.newDescriptor labels e.2.descriptor })

/-- The method under its `newMemberKey`, with the parameters under theirs. -/
def newMethod (e : MemberKey × Method) : MemberKey × Method :=
  (t.newMemberKey labels e.2.names e.1,
    { e.2.mapNames (t.namesIn labels) with descriptor := t.newDescriptor labels e.2.descriptor })

/-- The class `c'` in place of another one `c`: each member stands where it stood, as `newField` or
`newMethod` gives it, under its new key. -/
structure ClassInPlace (c c' : ClassEntry) : Prop where
  names : c'.names = t.namesIn labels c.names
  comment : c'.comment = c.comment
  fields : c'.fields.entries = c.fields.entries.map (t.newField labels)
  methods : c'.methods.entries = c.methods.entries.map (t.newMethod labels)

/-- The table in place of another one: each class stands where it stood, under its `newName`. -/
structure InPlace (t' : Table) : Prop where
  namespaces : t'.namespaces.labels = labels
  properties : t'.properties = t.properties
  classes : List.Forall₂ (fun e e' => e'.1 = t.newName labels e.2.names e.1 ∧
    t.ClassInPlace labels e.2 e'.2) t.classes.entries t'.classes.entries

/-- What a request can be refused for: its `labels`, a descriptor in which a class name does not
end, or two entries that would get the same key. -/
inductive Refuses : Prop where
  | noLabel (h : labels = [])
  | repeatedLabel (h : ¬labels.Nodup)
  | unknownLabel {label : String} (hmem : label ∈ labels) (h : label ∉ t.namespaces.labels)
  | openDescriptor {descriptor : String} {after : List Char} (hmem : descriptor ∈ t.descriptors)
    (hafter : 'L' :: after <:+ descriptor.toList) (h : ';' ∉ after)
  | sameClass {e e' : String × ClassEntry} (he : e ∈ t.classes.entries)
    (he' : e' ∈ t.classes.entries) (hne : e.1 ≠ e'.1)
    (h : t.newName labels e.2.names e.1 = t.newName labels e'.2.names e'.1)
  | sameField {e : String × ClassEntry} {f f' : MemberKey × Field} (he : e ∈ t.classes.entries)
    (hf : f ∈ e.2.fields.entries) (hf' : f' ∈ e.2.fields.entries) (hne : f.1 ≠ f'.1)
    (h : t.newMemberKey labels f.2.names f.1 = t.newMemberKey labels f'.2.names f'.1)
  | sameMethod {e : String × ClassEntry} {m m' : MemberKey × Method} (he : e ∈ t.classes.entries)
    (hm : m ∈ e.2.methods.entries) (hm' : m' ∈ e.2.methods.entries) (hne : m.1 ≠ m'.1)
    (h : t.newMemberKey labels m.2.names m.1 = t.newMemberKey labels m'.2.names m'.1)

end Request

/-! ## Names at positions -/

section Positions

variable {t t' : Table} {labels : List String}

/-- `namesIn` gives the names in the namespaces that are asked for, which `pick` finds at their
positions. -/
theorem namesIn_eq_pick {positions : List Nat} (h : t.namespaces.positions labels = .ok positions)
    (names : Names) : t.namesIn labels names = names.pick positions :=
  Names.ext (Names.slots_pick_of_positions h names).symm

variable {source : Nat} {rest : List Nat}
  (hpositions : t.namespaces.positions labels = .ok (source :: rest))

include hpositions

/-- `newName` gives the name at the first position. -/
theorem newName_eq (names : Names) (old : String) :
    t.newName labels names old = (names.get source).getD old := by
  obtain ⟨label, _, hlabel, -, rfl⟩ :=
    List.forall₂_cons_right_iff.1 (Namespaces.positions_eq_ok_iff.1 hpositions)
  simp [newName, Namespaces.nameIn_eq_get hlabel]

/-- `newKey` of the names that `pick` finds is the `newName`. -/
theorem newKey_pick_eq (names : Names) (old : String) :
    newKey (names.pick (source :: rest)) old = t.newName labels names old := by
  have hsource : (names.pick (source :: rest)).source = names.get source := Names.get_pick rfl
  rw [newKey, hsource, newName_eq hpositions]

/-- `classRenaming` renames classes to their `newClassName`. -/
theorem className_classRenaming_eq (name : String) :
    (t.classRenaming 0 source).className name = t.newClassName labels name := by
  rw [newClassName]
  split
  · next c hc =>
    rw [className_classRenaming (OrderedMap.get?_eq_some_iff.1 hc), newName_eq hpositions]
  · next hc => exact className_classRenaming_of_not_mem (OrderedMap.get?_eq_none_iff.1 hc)

/-- `classRenaming` makes the `newDescriptor` of a descriptor that `IsClosed`, and of no other
one. -/
theorem descriptor_classRenaming_iff {descriptor descriptor' : String} :
    (t.classRenaming 0 source).descriptor descriptor = .ok descriptor' ↔
      Descriptor.IsClosed descriptor ∧ descriptor' = t.newDescriptor labels descriptor := by
  rw [Renaming.descriptor, funext (className_classRenaming_eq hpositions), newDescriptor]
  -- the old descriptor, which `newDescriptor` gives otherwise, does not come into it
  constructor
  · intro h
    rw [h]
    exact ⟨Descriptor.exists_map_iff.1 ⟨_, h⟩, rfl⟩
  · rintro ⟨hclosed, rfl⟩
    obtain ⟨descriptor', h⟩ := Descriptor.exists_map_iff.2 hclosed
    rw [h]
    rfl

/-- The `newMemberKey` is made of the new name and descriptor. -/
theorem newMemberKey_eq (names : Names) {old : MemberKey} {descriptor : String}
    (h : descriptor = old.descriptor) :
    t.newMemberKey labels names old = {
      name := newKey (t.namesIn labels names) old.name
      descriptor := t.newDescriptor labels descriptor } := by
  rw [namesIn_eq_pick hpositions, newKey_pick_eq hpositions, h]
  rfl

/-! ## Entries in place of others -/

variable {rules : EntryRules}

/-- The field that is `Reordered` from another one, under the key that belongs to it, is the
`newField` in its place. -/
theorem field_reordered_iff {e : MemberKey × Field} (he : e.2.Obeys rules e.1)
    (e' : MemberKey × Field) :
    (e.2.Reordered (t.classRenaming 0 source) (source :: rest) e'.2 ∧
        e'.1 = { name := newKey e'.2.names e.1.name, descriptor := e'.2.descriptor }) ↔
      Descriptor.IsClosed e.2.descriptor ∧ e' = t.newField labels e := by
  have hkey := newMemberKey_eq hpositions e.2.names he.descriptor_eq
  constructor
  · rintro ⟨⟨hdescriptor, hnames, hcomment⟩, hkey'⟩
    obtain ⟨hclosed, hdescriptor⟩ := (descriptor_classRenaming_iff hpositions).1 hdescriptor
    rw [← namesIn_eq_pick hpositions] at hnames
    rw [hnames, hdescriptor, ← hkey] at hkey'
    exact ⟨hclosed, Prod.ext hkey' (Field.ext hdescriptor hnames hcomment)⟩
  · rintro ⟨hclosed, rfl⟩
    refine ⟨⟨?_, namesIn_eq_pick hpositions _, rfl⟩, hkey⟩
    exact (descriptor_classRenaming_iff hpositions).2 ⟨hclosed, rfl⟩

/-- The method that is `Reordered` from another one, under the key that belongs to it, is the
`newMethod` in its place. -/
theorem method_reordered_iff {e : MemberKey × Method} (he : e.2.Obeys rules e.1)
    (e' : MemberKey × Method) :
    (e.2.Reordered (t.classRenaming 0 source) (source :: rest) e'.2 ∧
        e'.1 = { name := newKey e'.2.names e.1.name, descriptor := e'.2.descriptor }) ↔
      Descriptor.IsClosed e.2.descriptor ∧ e' = t.newMethod labels e := by
  have hkey := newMemberKey_eq hpositions e.2.names he.descriptor_eq
  have hpick : (·.pick (source :: rest)) = t.namesIn labels :=
    funext fun names => (namesIn_eq_pick hpositions names).symm
  constructor
  · rintro ⟨⟨hdescriptor, hnames, hcomment, hparameters⟩, hkey'⟩
    obtain ⟨hclosed, hdescriptor⟩ := (descriptor_classRenaming_iff hpositions).1 hdescriptor
    -- in terms of labels, what was made is what has to be made
    rw [he.forall₂_pick_iff, hpick] at hparameters
    rw [← namesIn_eq_pick hpositions] at hnames
    rw [hnames, hdescriptor, ← hkey] at hkey'
    exact ⟨hclosed, Prod.ext hkey' (Method.ext hdescriptor hnames hcomment hparameters)⟩
  · rintro ⟨hclosed, rfl⟩
    refine ⟨⟨?_, namesIn_eq_pick hpositions _, rfl, ?_⟩, hkey⟩
    · exact (descriptor_classRenaming_iff hpositions).2 ⟨hclosed, rfl⟩
    · rw [he.forall₂_pick_iff, hpick]
      rfl

/-- The class that is `Reordered` from another one is the one `ClassInPlace`, with its new names,
and so are its members. -/
theorem class_reordered_iff {e : String × ClassEntry} (he : e.2.Obeys rules e.1)
    (e' : String × ClassEntry) :
    (e.2.Reordered (t.classRenaming 0 source) (source :: rest) e'.2 ∧
        e'.1 = newKey e'.2.names e.1) ↔
      (∀ descriptor ∈ e.2.descriptors, Descriptor.IsClosed descriptor) ∧
        e'.1 = t.newName labels e.2.names e.1 ∧ t.ClassInPlace labels e.2 e'.2 := by
  have hfields := forall₂_iff_map (m := e'.2.fields.entries) fun f hf =>
    field_reordered_iff hpositions (he.fields f hf)
  have hmethods := forall₂_iff_map (m := e'.2.methods.entries) fun m hm =>
    method_reordered_iff hpositions (he.methods m hm)
  -- the descriptors of a class are those of its members
  rw [ClassEntry.descriptors, List.forall_mem_append, List.forall_mem_map, List.forall_mem_map,
    ← newKey_pick_eq hpositions]
  constructor
  · rintro ⟨⟨hnames, hcomment, hfields', hmethods'⟩, hkey⟩
    obtain ⟨hclosed, hfields'⟩ := hfields.1 hfields'
    obtain ⟨hclosed', hmethods'⟩ := hmethods.1 hmethods'
    rw [← hnames]
    exact ⟨⟨hclosed, hclosed'⟩, hkey, hnames.trans (namesIn_eq_pick hpositions _).symm, hcomment,
      hfields', hmethods'⟩
  · rintro ⟨⟨hclosed, hclosed'⟩, hkey, hnames, hcomment, hfields', hmethods'⟩
    rw [namesIn_eq_pick hpositions] at hnames
    rw [← hnames] at hkey
    exact ⟨⟨hnames, hcomment, hfields.2 ⟨hclosed, hfields'⟩,
      hmethods.2 ⟨hclosed', hmethods'⟩⟩, hkey⟩

/-- The table that is `Reordered` from another one is the one `InPlace`, with the new names of all
its entries. Each of its descriptors `IsClosed`. -/
theorem reordered_iff (ht : t.Obeys rules) :
    t.Reordered source (source :: rest) t' ↔
      (∀ descriptor ∈ t.descriptors, Descriptor.IsClosed descriptor) ∧ t.InPlace labels t' := by
  have hlabels := Namespaces.map_label_of_positions hpositions
  have hclasses : List.Forall₂ (fun e e' => e.2.Reordered (t.classRenaming 0 source)
      (source :: rest) e'.2 ∧ e'.1 = newKey e'.2.names e.1) t.classes.entries t'.classes.entries ↔
        (∀ descriptor ∈ t.descriptors, Descriptor.IsClosed descriptor) ∧
          List.Forall₂ (fun e e' => e'.1 = t.newName labels e.2.names e.1 ∧
            t.ClassInPlace labels e.2 e'.2) t.classes.entries t'.classes.entries := by
    -- the descriptors are those of the classes, so they can be left to each class
    rw [descriptors, List.forall_mem_flatMap, ← List.forall₂_and_left]
    refine forall₂_iff_of_forall₂ (List.forall₂_same.2 fun _ _ => rfl) ?_
    rintro e he _ e' rfl
    exact class_reordered_iff hpositions (ht e he) e'
  constructor
  · rintro ⟨hnamespaces, hproperties, hclasses'⟩
    obtain ⟨hclosed, hclasses'⟩ := hclasses.1 hclasses'
    exact ⟨hclosed, hnamespaces.trans hlabels, hproperties, hclasses'⟩
  · rintro ⟨hclosed, hnamespaces, hproperties, hclasses'⟩
    exact ⟨hnamespaces.trans hlabels.symm, hproperties, hclasses.2 ⟨hclosed, hclasses'⟩⟩

end Positions

/-! ## What comes out of a request -/

variable {t t' : Table} {labels : List String} {rules : EntryRules}

/-- `reorder` gives the table `InPlace` of the one it is made for, if this has all its labels and
each of its descriptors `IsClosed`. -/
theorem outcome_reorder_iff_inPlace (ht : t.Obeys rules) :
    (t.reorder labels).outcome = .ok t' ↔ (∀ label ∈ labels, label ∈ t.namespaces.labels) ∧
      (∀ descriptor ∈ t.descriptors, Descriptor.IsClosed descriptor) ∧ t.InPlace labels t' := by
  rw [outcome_reorder_eq_ok_iff]
  constructor
  · rintro ⟨-, source, rest, hpositions, h⟩
    refine ⟨fun label hlabel => ?_, (reordered_iff hpositions ht).1 h⟩
    obtain ⟨_, i, -, -, hi⟩ := Namespaces.exists_position_of_mem hpositions hlabel
    exact List.mem_of_getElem? hi
  · rintro ⟨hknown, hclosed, h⟩
    -- the new table vouches for the labels
    obtain ⟨hne, -, hnodup⟩ := h.namespaces ▸ t'.namespaces.valid
    obtain ⟨positions, hpositions⟩ := Namespaces.exists_positions hknown
    refine ⟨hnodup, ?_⟩
    cases positions with
    | nil =>
      have hnil := List.forall₂_nil_right_iff.1 (Namespaces.positions_eq_ok_iff.1 hpositions)
      exact absurd hnil hne
    | cons source rest =>
      exact ⟨source, rest, hpositions, (reordered_iff hpositions ht).2 ⟨hclosed, h⟩⟩

/-! ## When a request fails -/

/-- There is a class `ClassInPlace` of another one exactly if no two of its fields and no two of its
methods get the same `newMemberKey`. -/
theorem exists_classInPlace_iff {c : ClassEntry} :
    (∃ c', t.ClassInPlace labels c c') ↔
      (∀ f ∈ c.fields.entries, ∀ f' ∈ c.fields.entries, t.newMemberKey labels f.2.names f.1 =
        t.newMemberKey labels f'.2.names f'.1 → f.1 = f'.1) ∧
      ∀ m ∈ c.methods.entries, ∀ m' ∈ c.methods.entries, t.newMemberKey labels m.2.names m.1 =
        t.newMemberKey labels m'.2.names m'.1 → m.1 = m'.1 := by
  have hfields := OrderedMap.exists_entries_eq_map_iff (m := c.fields) (f := t.newField labels)
  have hmethods := OrderedMap.exists_entries_eq_map_iff (m := c.methods) (f := t.newMethod labels)
  refine Iff.trans ?_ (and_congr hfields hmethods)
  constructor
  · rintro ⟨c', h⟩
    exact ⟨⟨c'.fields, h.fields⟩, c'.methods, h.methods⟩
  · rintro ⟨⟨fields, hfields⟩, methods, hmethods⟩
    exact ⟨{ names := t.namesIn labels c.names, comment := c.comment, fields, methods },
      rfl, rfl, hfields, hmethods⟩

/-- `Refuses` does not hold of a table and a request exactly if the table has all labels of the
request, each of its descriptors `IsClosed`, and there is a table `InPlace` of it. -/
theorem not_refuses_iff :
    ¬t.Refuses labels ↔ (∀ label ∈ labels, label ∈ t.namespaces.labels) ∧
      (∀ descriptor ∈ t.descriptors, Descriptor.IsClosed descriptor) ∧
      ∃ t', t.InPlace labels t' := by
  constructor
  · -- each reason for which it is not refused is a part of the table to be made
    intro h
    have hknown : ∀ label ∈ labels, label ∈ t.namespaces.labels := fun label hlabel =>
      by_contra fun hunknown => h (.unknownLabel hlabel hunknown)
    refine ⟨hknown, fun descriptor hmem => ?_, ?_⟩
    · exact Descriptor.isClosed_iff.2 fun after hafter =>
        by_contra fun hopen => h (.openDescriptor hmem hafter hopen)
    · have hclasses : ∃ classes : OrderedMap String ClassEntry, List.Forall₂ (fun e e' =>
          e'.1 = t.newName labels e.2.names e.1 ∧ t.ClassInPlace labels e.2 e'.2)
          t.classes.entries classes.entries := by
        refine OrderedMap.exists_rekeyed_iff.2 ⟨fun e he => exists_classInPlace_iff.2 ⟨?_, ?_⟩, ?_⟩
        · exact fun f hf f' hf' hkey => by_contra fun hne => h (.sameField he hf hf' hne hkey)
        · exact fun m hm m' hm' hkey => by_contra fun hne => h (.sameMethod he hm hm' hne hkey)
        · exact fun e he e' he' hkey => by_contra fun hne => h (.sameClass he he' hne hkey)
      obtain ⟨classes, hclasses⟩ := hclasses
      have hvalid : ValidLabels labels :=
        ⟨fun hnil => h (.noLabel hnil), fun hempty => t.namespaces.valid.2.1 (hknown _ hempty),
          by_contra fun hrepeated => h (.repeatedLabel hrepeated)⟩
      exact ⟨{ namespaces := { labels, valid := hvalid }, properties := t.properties, classes },
        rfl, rfl, hclasses⟩
  · -- a table that was made speaks against each of the reasons
    rintro ⟨hknown, hclosed, t', h⟩ hrefuses
    obtain ⟨hne, -, hnodup⟩ := h.namespaces ▸ t'.namespaces.valid
    obtain ⟨hmembers, hclasses⟩ := OrderedMap.exists_rekeyed_iff.1 ⟨t'.classes, h.classes⟩
    cases hrefuses with
    | noLabel hnil => exact hne hnil
    | repeatedLabel hrepeated => exact hrepeated hnodup
    | unknownLabel hmem hunknown => exact hunknown (hknown _ hmem)
    | openDescriptor hmem hafter hopen =>
      exact hopen (Descriptor.isClosed_iff.1 (hclosed _ hmem) _ hafter)
    | sameClass he he' hne hkey => exact hne (hclasses _ he _ he' hkey)
    | sameField he hf hf' hne hkey =>
      exact hne ((exists_classInPlace_iff.1 (hmembers _ he)).1 _ hf _ hf' hkey)
    | sameMethod he hm hm' hne hkey =>
      exact hne ((exists_classInPlace_iff.1 (hmembers _ he)).2 _ hm _ hm' hkey)

/-- Reordering merges no entries and drops none, and fails for the reasons in `Refuses` only: it
gives a table in place of the old one, in which each entry stands where it stood. -/
theorem reorder_inPlace_or_refused (ht : t.IsAligned) (labels : List String) :
    ((∃ failure, (t.reorder labels).outcome = .error failure) ↔ t.Refuses labels) ∧
      ∀ t', (t.reorder labels).outcome = .ok t' → t.InPlace labels t' := by
  refine ⟨?_, fun t' h => ((outcome_reorder_iff_inPlace ht).1 h).2.2⟩
  have hok : (∃ t', (t.reorder labels).outcome = .ok t') ↔ ¬t.Refuses labels := by
    simp only [outcome_reorder_iff_inPlace ht, exists_and_left, not_refuses_iff]
  rw [← not_iff_not, ← hok]
  cases (t.reorder labels).outcome with
  | error failure => simp
  | ok t' => simp

/-- A table with two methods that differ in their descriptors only, and do so no longer once the
class `a` has its other name. -/
def overloads : Table where
  namespaces := { labels := ["official", "named"], valid := Namespaces.validLabels_official_named }
  classes := .ofList [("a", {
    names := { slots := [some "a", some "Main"] }
    methods := .ofList [
      ({ name := "x", descriptor := "(La;)V" }, {
        descriptor := "(La;)V"
        names := { slots := [some "x", some "run"] } }),
      ({ name := "x", descriptor := "(LMain;)V" }, {
        descriptor := "(LMain;)V"
        names := { slots := [some "x", some "run"] } })] })]

/-- The `overloads` cannot be reordered to their second namespace. They can be to the first one,
where both methods stay. -/
theorem reorder_inPlace_or_refused_overloads :
    overloads.IsAligned ∧ (∃ failure, (overloads.reorder ["named"]).outcome = .error failure) ∧
      ∃ t', (overloads.reorder ["official"]).outcome = .ok t' ∧
        overloads.InPlace ["official"] t' := by
  have haligned : overloads.IsAligned := by decide
  have hrefuses : overloads.Refuses ["named"] :=
    .sameMethod List.mem_cons_self List.mem_cons_self (List.mem_cons_of_mem _ List.mem_cons_self)
      (by decide) (by decide +kernel)
  obtain ⟨t', h⟩ := Option.isSome_iff_exists.1
    (show (overloads.reorder ["official"]).outcome.toOption.isSome = true by decide +kernel)
  have h := toOption_eq_some_iff.1 h
  exact ⟨haligned, (reorder_inPlace_or_refused haligned _).1.2 hrefuses, t', h,
    (reorder_inPlace_or_refused haligned _).2 t' h⟩

end Table

end MappingTables
