import MappingTables.Proofs.SameSource

/-!
# Reordering to the namespaces that are there

A table stays as it is when it is reordered to its own namespaces, if its keys agree with its
entries and all class names in its descriptors end. Whatever a table was like, it is so once it was
reordered.

* `Table.outcome_reorder_labels`: the tables that stay as they are.
* `Table.Reordered.isClosed`: the descriptors of a reordered table.
* `Table.reorder_idempotent`: reordering twice is reordering once.
-/

namespace MappingTables

/-! ## All slots in their order -/

/-- `pick` of all slots in their order changes nothing. -/
theorem Names.pick_range (names : Names) : names.pick (List.range names.size) = names := by
  obtain ⟨slots⟩ := names
  refine Names.ext (List.ext_getElem? fun i => ?_)
  change ((List.range slots.length).map (Names.get ⟨slots⟩))[i]? = slots[i]?
  rw [List.getElem?_map]
  by_cases hi : i < slots.length
  · rw [List.getElem?_range hi, List.getElem?_eq_getElem hi, Option.map_some, Names.get,
      List.getElem?_eq_getElem hi]
    rfl
  · rw [List.getElem?_eq_none (by simpa using hi), List.getElem?_eq_none (by simpa using hi)]
    rfl

/-- The `positions` of all labels are in their order. -/
theorem Namespaces.positions_labels (ns : Namespaces) :
    ns.positions ns.labels = .ok (List.range ns.size) := by
  rw [positions_eq_ok_iff, List.forall₂_iff_get]
  refine ⟨List.length_range.symm, fun i hi _ => ?_⟩
  rw [List.get_eq_getElem, List.get_eq_getElem, List.getElem_range]
  exact List.getElem?_eq_getElem hi

namespace Table

variable {t t' : Table} {source : Nat} {positions : List Nat}

/-- `reorder` to its own namespaces leaves a table as it is that `IsAligned`, and in which each
descriptor `IsClosed`, with all entries in their order. -/
theorem outcome_reorder_labels (ht : t.IsAligned)
    (hclosed : ∀ descriptor ∈ t.descriptors, Descriptor.IsClosed descriptor) :
    (t.reorder t.namespaces.labels).outcome = .ok t := by
  have hhead : t.namespaces.labels.head? = some t.namespaces.source := by
    rw [List.head?_eq_getElem?, t.namespaces.getElem?_zero]
  rw [outcome_reorder_source_iff ht hhead]
  refine ⟨_, t.namespaces.positions_labels, rfl, ?_, ?_⟩
  · exact (ht.with_descriptors hclosed).mono
      { keyed := fun _ _ _ => trivial
        descriptor := fun _ => id
        parameter := fun _ _ => trivial }
  · -- each entry has a slot for each namespace, so that none is missed and none made up
    have hfixed : t.Obeys (fixedRules (·.pick (List.range t.namespaces.size))) :=
      ht.mono
        { keyed := fun _ names h => h.1 ▸ names.pick_range
          descriptor := fun _ => id
          parameter := fun names h => h ▸ names.pick_range }
    exact (mapNames_eq_self hfixed).symm

/-- Each descriptor of a table that is `Reordered` also `IsClosed`, whatever characters the names
have that were put in. -/
theorem Reordered.isClosed (h : t.Reordered source positions t') :
    ∀ descriptor ∈ t'.descriptors, Descriptor.IsClosed descriptor := by
  intro descriptor' hmem
  obtain ⟨descriptor, -, hdescriptor⟩ := exists_of_forall₂_of_mem h.descriptors hmem
  exact Descriptor.isClosed_of_map hdescriptor

/-- A table that `reorder` gave stays as it is by `reorder` to its own namespaces. -/
theorem outcome_reorder_again {labels : List String} (h : (t.reorder labels).outcome = .ok t') :
    (t'.reorder t'.namespaces.labels).outcome = .ok t' := by
  obtain ⟨-, source, rest, -, hreordered⟩ := outcome_reorder_eq_ok_iff.1 h
  exact outcome_reorder_labels hreordered.isAligned hreordered.isClosed

/-- Reordering twice is reordering once: a table that was reordered stays as it is under the same
request, with all its entries in their order. A table that was not reordered stays as it is when it
is reordered to its own namespaces, if it is aligned and each `L` in its descriptors has a semicolon
behind it. -/
theorem reorder_idempotent :
    (∀ (t t' : Table) (labels : List String), (t.reorder labels).outcome = .ok t' →
      (t'.reorder labels).outcome = .ok t') ∧
    ∀ t : Table, t.IsAligned →
      (∀ descriptor ∈ t.descriptors, ∀ after, 'L' :: after <:+ descriptor.toList → ';' ∈ after) →
      (t.reorder t.namespaces.labels).outcome = .ok t := by
  constructor
  · intro t t' labels h
    obtain ⟨-, source, rest, hpositions, hreordered⟩ := outcome_reorder_eq_ok_iff.1 h
    have hlabels : t'.namespaces.labels = labels :=
      hreordered.namespaces.trans (Namespaces.map_label_of_positions hpositions)
    exact hlabels ▸ outcome_reorder_again h
  · intro t ht hclosed
    refine outcome_reorder_labels ht fun descriptor hmem => ?_
    exact Descriptor.isClosed_iff.2 (hclosed descriptor hmem)

/-- A table with a class that has no name in the second namespace, and one whose name there has a
semicolon and an `L` in it. -/
def strangeNames : Table where
  namespaces := { labels := ["official", "named"], valid := Namespaces.validLabels_official_named }
  classes := .ofList [
    ("b", {
      names := { slots := [some "b", none] }
      fields := .ofList [({ name := "x", descriptor := "[La;" }, {
        descriptor := "[La;"
        names := { slots := [some "x", none] } })] }),
    ("a", {
      names := { slots := [some "a", some "L;Lb"] }
      methods := .ofList [({ name := "y", descriptor := "(La;Lb;)I" }, {
        descriptor := "(La;Lb;)I"
        names := { slots := [some "y", some "run"] }
        parameters := .ofList [(.ofNat 1, {
          index := .ofNat 1
          names := { slots := [none, some "size"] } })] })] })]

/-- `strangeNames` can be reordered to their second namespace, again to that, and to their own
namespaces. -/
theorem reorder_idempotent_strangeNames :
    (∃ t', (strangeNames.reorder ["named"]).outcome = .ok t' ∧
      t'.classes.keys = ["b", "L;Lb"] ∧ t'.descriptors = ["[LL;Lb;", "(LL;Lb;Lb;)I"] ∧
      (t'.reorder ["named"]).outcome = .ok t') ∧
    strangeNames.IsAligned ∧
    (∀ descriptor ∈ strangeNames.descriptors, ∀ after, 'L' :: after <:+ descriptor.toList →
      ';' ∈ after) ∧
    (strangeNames.reorder strangeNames.namespaces.labels).outcome = .ok strangeNames := by
  have hany : (strangeNames.reorder ["named"]).outcome.toOption.any (fun t' =>
      t'.classes.keys = ["b", "L;Lb"] ∧ t'.descriptors = ["[LL;Lb;", "(LL;Lb;Lb;)I"]) = true := by
    decide +kernel
  obtain ⟨t', h, ht'⟩ := (Option.any_eq_true ..).1 hany
  have h := toOption_eq_some_iff.1 h
  have ht' := of_decide_eq_true ht'
  have haligned : strangeNames.IsAligned := by decide
  have hclosed : ∀ descriptor ∈ strangeNames.descriptors, ∀ after,
      'L' :: after <:+ descriptor.toList → ';' ∈ after := by
    have hmap : ∀ descriptor ∈ strangeNames.descriptors,
        Descriptor.map id descriptor = .ok descriptor := by decide +kernel
    exact fun descriptor hmem => Descriptor.isClosed_iff.1 (hmap descriptor hmem)
  exact ⟨⟨t', h, ht'.1, ht'.2, reorder_idempotent.1 _ _ _ h⟩, haligned, hclosed,
    reorder_idempotent.2 _ haligned hclosed⟩

end Table

end MappingTables
