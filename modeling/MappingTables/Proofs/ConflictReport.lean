import MappingTables.Proofs.PlaceOrder
import MappingTables.Proofs.ReorderIdempotent
import MappingTables.Proofs.RootedMerge

/-!
# What merging reports

Merging goes through the entries of both tables in ascending order of their keys in the shared
namespace, and reports where the two say different things of the same entry.

* `Table.conflictsAt`: what there is to report of a place.
* `Table.Switched.forall₂_places`: the entries of a table after switching.
* `Table.Reports`: what a list of conflicts says of two tables and the one they are merged into.
* `Table.merge_reports`: merging reports that list.
-/

namespace MappingTables

/-! ## Entries after switching -/

/-- `positions` that there are can be found by their labels. -/
theorem Namespaces.positions_map_label {ns : Namespaces} {positions : List Nat}
    (h : ∀ i ∈ positions, i < ns.size) : ns.positions (positions.map ns.label) = .ok positions := by
  rw [positions_eq_ok_iff, List.forall₂_map_left_iff, List.forall₂_same]
  exact fun i hi => getElem?_labels (h i hi)

namespace Table

/-- An entry `StandsAt` the place where it is. -/
theorem StandsAt.refl (t : Table) (p : Place) : t.StandsAt t p p where
  sameKind := by cases p <;> constructor
  names _ _ := rfl
  comment := rfl

/-- The entries of a table stand where they stood after it was `Switched` to another source
namespace. -/
theorem Switched.forall₂_places {t t' : Table} {position : Nat} (h : t.Switched position t')
    (hposition : position < t.namespaces.size) (ht : t.IsAligned) :
    List.Forall₂ (t.StandsAt t') t.places t'.places := by
  cases h with
  | refl => exact List.forall₂_same.2 fun p _ => .refl t p
  | reordered _ h =>
    refine h.forall₂_places ?_ ht
    rw [h.namespaces]
    refine Namespaces.positions_map_label fun i hi => ?_
    obtain ⟨j, hj, rfl⟩ := List.mem_map.1 hi
    exact exchange_lt hposition (List.mem_range.1 hj)

/-! ## What there is to report -/

/-- The conflicts to report of a place of two tables: for a parameter over its name in the `shared`
namespace, and for any entry over its comment. -/
def conflictsAt (shared : String) (left right : Table) : Place → List Conflict
  | .parameter owner key index =>
    let p : Place := .parameter owner key index
    disagreement p.location shared (left.nameAt shared p) (right.nameAt shared p) ++
      disagreement p.location "comment" (left.commentAt p) (right.commentAt p)
  | p => disagreement p.location "comment" (left.commentAt p) (right.commentAt p)

/-- What conflicts say of two tables that are rooted at a shared namespace, and of the table they
are merged into. `places` are those of all entries of one table or both, in ascending order. -/
structure Reports (shared : String) (left right merged : Table) (places : List Place)
    (conflicts : List Conflict) : Prop where
  ascending : places.Pairwise Place.Before
  mem_iff : ∀ p, p ∈ places ↔ (left.namesAt p).isSome ∨ (right.namesAt p).isSome
  /-- The conflicts at each place are reported, one place after the other, and no others. -/
  conflicts_eq : conflicts = places.flatMap (conflictsAt shared left right)
  /-- Classes, fields and methods that are matched have the same name. -/
  same_name : ∀ p, p.keyName? ≠ none → Agree (left.nameAt shared p) (right.nameAt shared p)
  /-- The entries of the merged table have the values of the left side, or else of the right one. -/
  kept : List.Forall₂ (fun p p' => p.SameKind p' ∧
    (∀ label, merged.nameAt label p' = (left.nameAt label p).or (right.nameAt label p)) ∧
    merged.commentAt p' = (left.commentAt p).or (right.commentAt p)) places merged.places

namespace RootedPair

variable {shared : String} {left right joined merged : Table} (h : RootedPair shared left right)

include h

/-- Entries that are matched by a name have that name, so `nameAt` agrees on both sides. -/
theorem agree_nameAt {p : Place} (hkey : p.keyName? ≠ none) :
    Agree (left.nameAt shared p) (right.nameAt shared p) := by
  obtain ⟨key, hkey⟩ := Option.ne_none_iff_exists'.1 hkey
  intro name hname name' hname'
  have hleft := h.left_rooted.fits.nameAt_source hkey (h.left_rooted.source.symm ▸ hname)
  have hright := h.right_rooted.fits.nameAt_source hkey (h.right_rooted.source.symm ▸ hname')
  exact hleft.trans hright.symm

/-- `joinConflicts` are no more than what there is to report, since names in keys agree. -/
theorem joinConflicts_eq (p : Place) :
    joinConflicts shared left right p = conflictsAt shared left right p := by
  rw [joinConflicts, entryConflicts, ← h.left_rooted.nameAt_shared, ← h.right_rooted.nameAt_shared]
  have hnone : p.keyName? ≠ none →
      disagreement p.location shared (left.nameAt shared p) (right.nameAt shared p) = [] :=
    fun hkey => disagreement_eq_nil_iff.2 (h.agree_nameAt hkey)
  cases p with
  | classEntry key => rw [hnone (Option.some_ne_none _)]; rfl
  | field owner key => rw [hnone (Option.some_ne_none _)]; rfl
  | method owner key => rw [hnone (Option.some_ne_none _)]; rfl
  | parameter owner key index => rfl

/-- `nameAt` a place of the joined table is that of the left side, or else of the right one. -/
theorem nameAt_joined (hjoined : Joined left right joined) (label : String) (p : Place) :
    joined.nameAt label p = (left.nameAt label p).or (right.nameAt label p) := by
  have hp := hjoined.at p
  cases hnames : joined.namesAt p with
  | none =>
    obtain ⟨hleft, hright⟩ := hjoined.nameAt_eq_none hnames label
    rw [nameAt_of_namesAt_eq_none hnames, hleft, hright]
    rfl
  | some names =>
    -- all slots are picked in their order, as if the table had been put into order already
    have hpick := h.nameIn_pick hjoined (List.Perm.refl _) joined.namespaces.positions_labels rfl
      (hp.names names hnames) label
    have hsize := (h.isAligned hjoined).size_eq hnames
    rw [← hsize, names.pick_range] at hpick
    rw [nameAt, hnames]
    exact hpick

/-- What `join` and `reorder` report. -/
theorem reports (hjoined : (join left right).outcome = .ok joined) {labels : List String}
    (hmem : ∀ label ∈ joined.namespaces.labels, label ∈ labels)
    (hmerged : (joined.reorder labels).outcome = .ok merged) :
    Reports shared left right merged joined.places (join left right).notes := by
  have hjoined' := joined_of_outcome hjoined
  obtain ⟨-, source, rest, hpositions, hreordered⟩ := outcome_reorder_eq_ok_iff.1 hmerged
  have hlabels : merged.namespaces.labels = labels :=
    hreordered.namespaces.trans (Namespaces.map_label_of_positions hpositions)
  rw [← hlabels] at hpositions hmem
  refine ⟨hjoined'.isAscending.pairwise_places, fun p => ?_, ?_, fun p => h.agree_nameAt, ?_⟩
  · rw [mem_places_iff, (hjoined'.at p).isSome, Bool.or_eq_true]
  · rw [notes_join_eq hjoined, h.left_rooted.source]
    exact List.flatMap_congr fun p _ => h.joinConflicts_eq p
  · refine (hreordered.forall₂_places hpositions (h.isAligned hjoined')).imp fun p p' hp => ?_
    refine ⟨hp.sameKind, fun label => ?_, hp.comment.trans (hjoined'.at p).comment⟩
    -- a label beside the merged ones names nothing on either side
    rw [← h.nameAt_joined hjoined' label p]
    by_cases hlabel : label ∈ merged.namespaces.labels
    · exact hp.names label hlabel
    · rw [nameAt_of_not_mem hlabel, nameAt_of_not_mem (mt (hmem label) hlabel)]

end RootedPair

/-! ## Merging -/

/-- Two tables that are switched to the only namespace they share make a `RootedPair`, and their
namespaces are those of the merged table. -/
theorem rootedPair_of_switched {a b left right : Table} {shared : String} {i j : Nat}
    (ha : a.IsAligned) (hb : b.IsAligned) (hshared : sharedLabels a b = [shared])
    (hi : a.namespaces.labels[i]? = some shared) (hj : b.namespaces.labels[j]? = some shared)
    (hleft : a.Switched i left) (hright : b.Switched j right) :
    RootedPair shared left right ∧
      ∀ label ∈ left.namespaces.labels ++ right.namespaces.labels.tail,
        label ∈ mergedLabels a b shared := by
  have hleftPerm := hleft.perm_labels (List.getElem?_eq_some_iff.1 hi).1
  have hrightPerm := hright.perm_labels (List.getElem?_eq_some_iff.1 hj).1
  have hpair :=
    rootedPair_of_perm (hleft.isRootedAt hi ha.keysFit) (hright.isRootedAt hj hb.keysFit)
    hleftPerm hrightPerm hshared
  refine ⟨hpair, fun label hlabel => ?_⟩
  exact (perm_mergedLabels hpair.right_rooted hrightPerm).mem_iff.2
    ((hleftPerm.append_right _).mem_iff.1 hlabel)

/-- `merge` reports exactly what the two tables say differently of the same entry, in ascending
order of the entries: the `conflicts` are as `Reports` says. Both tables are seen as they are once
they are switched to the `shared` namespace, in which their entries are matched. What is kept is
what the left table says, and so does the `merged` one. -/
theorem merge_reports {a b merged : Table} {conflicts : List Conflict} {shared : String}
    (ha : a.IsAligned) (hb : b.IsAligned) (hshared : sharedLabels a b = [shared])
    (h : (a.merge b).outcome = .ok (merged, conflicts)) :
    ∃ left right : Table, (a.switchSource shared).outcome = .ok left ∧
      (b.switchSource shared).outcome = .ok right ∧
      List.Forall₂ (a.StandsAt left) a.places left.places ∧
      List.Forall₂ (b.StandsAt right) b.places right.places ∧
      ∃ places, Reports shared left right merged places conflicts := by
  obtain ⟨left, right, joined, hleft, hright, hjoined, rfl, hmerged⟩ :=
    (outcome_merge_eq_ok_iff hshared).1 h
  obtain ⟨i, hi, hleftSwitched⟩ := switched_of_outcome hleft
  obtain ⟨j, hj, hrightSwitched⟩ := switched_of_outcome hright
  obtain ⟨hpair, hlabels⟩ :=
    rootedPair_of_switched ha hb hshared hi hj hleftSwitched hrightSwitched
  rw [← (joined_of_outcome hjoined).namespaces] at hlabels
  exact ⟨left, right, hleft, hright,
    hleftSwitched.forall₂_places (List.getElem?_eq_some_iff.1 hi).1 ha,
    hrightSwitched.forall₂_places (List.getElem?_eq_some_iff.1 hj).1 hb,
    joined.places, hpair.reports hjoined hlabels hmerged⟩

/-- A table with comments on a class and on a parameter. -/
def commentedSample : Table where
  namespaces := { labels := ["obfuscated", "intermediary"], valid := by decide }
  classes := .ofList [
    ("b", { names := { slots := [some "b", none] }, comment := some "not matched" }),
    ("a", {
      names := { slots := [some "a", some "class_1"] }
      comment := some "entry point"
      methods := .ofList [({ name := "x", descriptor := "(La;I)V" }, {
        descriptor := "(La;I)V"
        names := { slots := [some "x", some "method_1"] }
        parameters := .ofList [(.ofNat 2, {
          index := .ofNat 2
          names := { slots := [none, some "param_2"] }
          comment := some "a size" })] })] })]

/-- A table with other comments on them, and with another name of the parameter. -/
def recommentedSample : Table where
  namespaces := { labels := ["intermediary", "searge"], valid := by decide }
  classes := .ofList [
    ("class_2", { names := { slots := [some "class_2", some "Other"] }, comment := some "unused" }),
    ("class_1", {
      names := { slots := [some "class_1", some "Main"] }
      comment := some "the start"
      methods := .ofList [({ name := "method_1", descriptor := "(Lclass_1;I)V" }, {
        descriptor := "(Lclass_1;I)V"
        names := { slots := [some "method_1", some "run"] }
        parameters := .ofList [(.ofNat 2, {
          index := .ofNat 2
          names := { slots := [some "size", some "count"] }
          comment := some "a count" })] })] })]

/-- `commentedSample` and `recommentedSample` are merged with three conflicts, in the order of their
entries. -/
theorem merge_reports_sample :
    commentedSample.IsAligned ∧ recommentedSample.IsAligned ∧
      sharedLabels commentedSample recommentedSample = ["intermediary"] ∧
      ∃ merged conflicts, (commentedSample.merge recommentedSample).outcome =
        .ok (merged, conflicts) ∧
        conflicts.map (fun c => (c.subject, c.kept, c.discarded)) =
          [("comment", "entry point", "the start"), ("intermediary", "param_2", "size"),
            ("comment", "a size", "a count")] ∧
        ∃ left right : Table, (commentedSample.switchSource "intermediary").outcome = .ok left ∧
          (recommentedSample.switchSource "intermediary").outcome = .ok right ∧
          ∃ places, Reports "intermediary" left right merged places conflicts := by
  have ha : commentedSample.IsAligned := by decide
  have hb : recommentedSample.IsAligned := by decide
  have hshared : sharedLabels commentedSample recommentedSample = ["intermediary"] := by decide
  have hmerged : (commentedSample.merge recommentedSample).outcome.toOption.any (fun m =>
      m.2.map (fun c => (c.subject, c.kept, c.discarded)) =
        [("comment", "entry point", "the start"), ("intermediary", "param_2", "size"),
          ("comment", "a size", "a count")]) = true := by
    -- keys are put into order by a sort that can be evaluated
    simp only [merge, join, Layout.joinClass, Layout.joinMethod,
      unionKeys_eq_insertionSort isKeyOrder_textLe, unionKeys_eq_insertionSort isKeyOrder_memberKey,
      unionKeys_eq_insertionSort isKeyOrder_indexLe]
    decide +kernel
  obtain ⟨⟨merged, conflicts⟩, hm, hconflicts⟩ := (Option.any_eq_true ..).1 hmerged
  have hm := toOption_eq_some_iff.1 hm
  obtain ⟨left, right, hleft, hright, -, -, hreports⟩ := merge_reports ha hb hshared hm
  exact ⟨ha, hb, hshared, merged, conflicts, hm, of_decide_eq_true hconflicts, left, right, hleft,
    hright, hreports⟩

end Table

end MappingTables
