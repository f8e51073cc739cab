import MappingTables.Proofs.ConflictReport
import MappingTables.Proofs.MergeOrder
import MappingTables.Proofs.Nested.Reader

/-!
# Merging the other way round

The left one of two tables decides on the order of namespaces, and what it says is kept where the
other one says something else. If both tables have the same source namespace, and share no other
one, nothing else depends on which one is the left one.

* `Conflict.swap`: a conflict seen from the other side.
* `Table.SharesSource`: two tables that have only the source namespace in common.
* `Table.SharesSource.exists_merge_iff`: when they can be merged.
* `Table.merge_swap`: what comes of merging them the other way round.
-/

namespace MappingTables

/-! ## Conflicts -/

/-- A `Conflict` as it is seen from the other side. -/
def Conflict.swap (c : Conflict) : Conflict :=
  { c with kept := c.discarded, discarded := c.kept }

/-- `disagreement` finds on one side what it finds on the other one, with the values exchanged by
`Conflict.swap`. -/
theorem disagreement_swap (location subject : String) (left right : Option String) :
    disagreement location subject right left =
      (disagreement location subject left right).map Conflict.swap := by
  cases left with
  | none => cases right <;> rfl
  | some l =>
    cases right with
    | none => rfl
    | some r =>
      by_cases h : l = r
      · rw [disagreement, disagreement, if_pos h, if_pos h.symm, List.map_nil]
      · rw [disagreement, disagreement, if_neg h, if_neg (Ne.symm h)]
        rfl

namespace Table

variable {shared : String}

/-- `conflictsAt` each place are the same, seen from the other side. -/
theorem conflictsAt_swap (shared : String) (left right : Table) (p : Place) :
    conflictsAt shared right left p = (conflictsAt shared left right p).map Conflict.swap := by
  cases p with
  | classEntry key => exact disagreement_swap ..
  | field owner key => exact disagreement_swap ..
  | method owner key => exact disagreement_swap ..
  | parameter owner key index =>
    rw [conflictsAt, conflictsAt, List.map_append, ← disagreement_swap, ← disagreement_swap]

section Reports

variable {left right merged merged' : Table} {places places' : List Place}
  {conflicts conflicts' : List Conflict}

/-- What `Reports` says the other way round are the same conflicts in the same order, each of them
with `Conflict.swap`. -/
theorem Reports.swap_eq (h : Reports shared left right merged places conflicts)
    (h' : Reports shared right left merged' places' conflicts') :
    conflicts' = conflicts.map Conflict.swap := by
  -- both orders go through the same places in ascending order
  have hplaces : places' = places := Place.eq_of_pairwise h'.ascending h.ascending fun p =>
    (h'.mem_iff p).trans (or_comm.trans (h.mem_iff p).symm)
  rw [h'.conflicts_eq, h.conflicts_eq, hplaces, List.map_flatMap]
  exact List.flatMap_congr fun p _ => conflictsAt_swap shared left right p

end Reports

/-! ## Pairs of tables -/

section Pair

variable {s t x y : Table} {p : Place}

/-- A `RootedPair` is one the other way round. -/
theorem RootedPair.symm (h : RootedPair shared s t) : RootedPair shared t s :=
  ⟨h.right_rooted, h.left_rooted, fun label ht hs => h.disjoint label hs ht⟩

/-- A table that `readInput` reads from a file of the nested dialect, the only one with parameters,
`NamesParameters`: none of them is empty. -/
theorem namesParameters_of_readInput {input : Input} (label : String)
    (h : Format.Nested.readInput input = .ok t) : NamesParameters label t := by
  have hsound : Format.SoundLines [] (Format.readLines input.texts) :=
    Format.soundLines_readLines fun _ _ => nofun
  have hfits := Format.Nested.fits_of_readFile hsound h
  intro owner key index hname
  obtain ⟨names, hnames, hname⟩ := Option.bind_eq_some_iff.1 hname
  obtain ⟨position, -, hget⟩ := Namespaces.nameIn_eq_some_iff.1 hname
  have hrule := (Obeys.at hfits.entries hnames).parameter rfl
  exact (hrule.2 "" (Names.mem_slots_of_get hget)).1 rfl

/-- The left table `NamesParameters` if what stands at each place is `MergeableAt` it. -/
theorem MergeableAt.namesParameters (h : ∀ p, MergeableAt shared s t p) :
    NamesParameters shared s := by
  intro owner key index hname
  exact (h (.parameter owner key index)).not_empty shared (by rw [hname, Option.some_or])

/-- What is `MergeableAt` a place is so the other way round, if both tables `NamesParameters`. -/
theorem RootedPair.mergeableAt_swap (h : RootedPair shared s t) (hs : NamesParameters shared s)
    (ht : NamesParameters shared t) (hp : MergeableAt shared s t p) : MergeableAt shared t s p := by
  obtain ⟨hmatched, hsoundLeft, hsoundRight⟩ := (h.mergeableAt_iff ht).1 hp
  exact (h.symm.mergeableAt_iff hs).2 ⟨hmatched.symm, hsoundRight, hsoundLeft⟩

/-- Tables into which the two of a `RootedPair` are merged both ways are `Alike`, if these two
agree. -/
theorem alike_of_isMerged_swap (hpair : RootedPair shared s t) (hx : IsMerged shared s t x)
    (hy : IsMerged shared t s y) (hagree : ∀ p, AgreeAt s t p)
    (hproperty : ∀ key, Agree (s.properties.get? key) (t.properties.get? key)) : x.Alike y where
  left_aligned := hx.aligned
  right_aligned := hy.aligned
  left_ascending := hx.ascending
  right_ascending := hy.ascending
  mem_labels label := by rw [hx.mem_labels, hy.mem_labels, or_comm]
  property key := by rw [hx.property, hy.property, (hproperty key).or_comm]
  isSome p := by rw [(hx.places p).isSome, (hy.places p).isSome, Bool.or_comm]
  name label p := by
    rw [(hx.places p).name, (hy.places p).name, (hpair.agree_of_agreeAt (hagree p) label).or_comm]
  comment p := by rw [(hx.places p).comment, (hy.places p).comment, (hagree p).comment.or_comm]

end Pair

/-! ## Tables with the same source namespace -/

/-- `merge` merges tables that share their source namespace by `join`. -/
theorem outcome_merge_iff_of_sources {a b merged : Table} {conflicts : List Conflict}
    (ha : a.namespaces.source = shared) (hb : b.namespaces.source = shared)
    (hshared : sharedLabels a b = [shared]) : (a.merge b).outcome = .ok (merged, conflicts) ↔
      ∃ joined, (join a b).outcome = .ok joined ∧ (join a b).notes = conflicts ∧
        (joined.reorder (mergedLabels a b shared)).outcome = .ok merged := by
  rw [outcome_merge_iff_of_source ha hshared, outcome_switchSource_source hb]
  constructor
  · rintro ⟨_, joined, hright, hjoined⟩
    obtain rfl := Except.ok.inj hright
    exact ⟨joined, hjoined⟩
  · rintro ⟨joined, hjoined⟩
    exact ⟨b, joined, rfl, hjoined⟩

/-- Whether two tables have the same source namespace and share no other one, and `KeysFit` holds of
both. -/
structure SharesSource (shared : String) (a b : Table) : Prop where
  left_fits : a.KeysFit
  right_fits : b.KeysFit
  left_source : a.namespaces.source = shared
  right_source : b.namespaces.source = shared
  shared_only : sharedLabels a b = [shared]

namespace SharesSource

variable {a b merged merged' : Table} {conflicts conflicts' : List Conflict}
  (h : SharesSource shared a b)

include h

/-- A table `SharesSource` with another one the other way round, too. -/
theorem symm : SharesSource shared b a where
  left_fits := h.right_fits
  right_fits := h.left_fits
  left_source := h.right_source
  right_source := h.left_source
  shared_only := sharedLabels_swap h.shared_only

/-- The tables make a `RootedPair`. -/
theorem rootedPair : RootedPair shared a b :=
  rootedPair_of_perm ⟨h.left_fits, h.left_source⟩ ⟨h.right_fits, h.right_source⟩ (List.Perm.refl _)
    (List.Perm.refl _) h.shared_only

/-- `merge` succeeds exactly if what stands at each place is `MergeableAt` it. -/
theorem exists_merge_iff : (∃ merged conflicts, (a.merge b).outcome = .ok (merged, conflicts)) ↔
    ∀ p, MergeableAt shared a b p := by
  rw [Table.exists_merge_iff h.rootedPair.left_rooted h.right_fits h.shared_only,
    outcome_switchSource_source h.right_source]
  constructor
  · rintro ⟨_, hright, hp⟩
    obtain rfl := Except.ok.inj hright
    exact hp
  · exact fun hp => ⟨_, rfl, hp⟩

/-- If `merge` succeeds and the right table `NamesParameters`, both hold the other way round,
too. -/
theorem exists_merge_swap
    (hmerge : ∃ merged conflicts, (a.merge b).outcome = .ok (merged, conflicts))
    (hb : NamesParameters shared b) :
    (∃ merged conflicts, (b.merge a).outcome = .ok (merged, conflicts)) ∧
      NamesParameters shared a := by
  have hp := h.exists_merge_iff.1 hmerge
  -- an empty name on the left side would have been rejected, as it is the one that is kept
  have ha : NamesParameters shared a := MergeableAt.namesParameters hp
  exact ⟨h.symm.exists_merge_iff.2 fun p => h.rootedPair.mergeableAt_swap ha hb (hp p), ha⟩

variable (hmerged : (a.merge b).outcome = .ok (merged, conflicts))

include hmerged

/-- The merged table `IsMerged`, and there is no conflict exactly if the two agree at each place. -/
theorem isMerged : IsMerged shared a b merged ∧ (conflicts = [] ↔ ∀ p, AgreeAt a b p) := by
  obtain ⟨right, hright, -, hmerged⟩ :=
    isMerged_of_outcome h.rootedPair.left_rooted h.right_fits h.shared_only hmerged
  rw [outcome_switchSource_source h.right_source] at hright
  obtain rfl := Except.ok.inj hright
  exact hmerged

/-- What merging the tables reports, as `Reports` says. -/
theorem reports : ∃ places, Reports shared a b merged places conflicts := by
  obtain ⟨joined, hjoined, rfl, hreorder⟩ :=
    (outcome_merge_iff_of_sources h.left_source h.right_source h.shared_only).1 hmerged
  refine ⟨joined.places, h.rootedPair.reports hjoined (fun label hlabel => ?_) hreorder⟩
  rw [(joined_of_outcome hjoined).namespaces] at hlabel
  exact (perm_mergedLabels h.rootedPair.right_rooted (List.Perm.refl _)).mem_iff.2 hlabel

/-- The merged table stays as it is by `reorder` to its own namespaces. -/
theorem outcome_reorder_merged :
    (merged.reorder merged.namespaces.labels).outcome = .ok merged := by
  obtain ⟨_, -, -, hreorder⟩ :=
    (outcome_merge_iff_of_sources h.left_source h.right_source h.shared_only).1 hmerged
  exact outcome_reorder_again hreorder

end SharesSource

/-- Two tables of which each `SharesSource` with the other one, and nothing else, can be merged in
either order. `merge` one way, where the right table `NamesParameters` and so has no empty one, is
possible exactly if it is so the other way. What one order reports the other one does, too, with
`Conflict.swap`, so seen from the other side. If that is nothing, and header properties do not
differ, the two merged tables become the same once `reorder` put their namespaces into the same
order. -/
theorem merge_swap {a b : Table} (h : SharesSource shared a b) :
    ((∃ ab conflicts, (a.merge b).outcome = .ok (ab, conflicts)) ∧ NamesParameters shared b ↔
      (∃ ba conflicts, (b.merge a).outcome = .ok (ba, conflicts)) ∧ NamesParameters shared a) ∧
    ∀ ab conflicts ba conflicts', (a.merge b).outcome = .ok (ab, conflicts) →
      (b.merge a).outcome = .ok (ba, conflicts') →
      conflicts' = conflicts.map Conflict.swap ∧
      (conflicts = [] → (∀ key, Agree (a.properties.get? key) (b.properties.get? key)) →
        ∃ t, (ba.reorder ab.namespaces.labels).outcome = .ok t ∧ t.equiv ab = true) := by
  refine ⟨⟨fun hab => h.exists_merge_swap hab.1 hab.2,
    fun hba => h.symm.exists_merge_swap hba.1 hba.2⟩, ?_⟩
  intro ab conflicts ba conflicts' hab hba
  obtain ⟨_, hreports⟩ := h.reports hab
  obtain ⟨_, hreports'⟩ := h.symm.reports hba
  refine ⟨hreports.swap_eq hreports', fun hconflicts hproperty => ?_⟩
  -- without conflicts the sides agree, and it does not matter which came first
  obtain ⟨hmerged, hagree⟩ := h.isMerged hab
  have halike : ab.Alike ba := alike_of_isMerged_swap h.rootedPair hmerged (h.symm.isMerged hba).1
    (hagree.1 hconflicts) hproperty
  obtain ⟨t, ht, hequiv⟩ := halike.exists_reorder (h.outcome_reorder_merged hab)
  exact ⟨t, ht, equiv_symm hequiv⟩

/-- A table in which other comments stand at the entries of `recommentedSample`, and another name of
a parameter, which stands under another index than its own. -/
def rootedSample : Table where
  namespaces := { labels := ["intermediary", "obfuscated"], valid := by decide }
  classes := .ofList [
    ("class_1", {
      names := { slots := [some "class_1", some "a"] }
      comment := some "entry point"
      methods := .ofList [({ name := "method_1", descriptor := "(Lclass_1;I)V" }, {
        descriptor := "(Lclass_1;I)V"
        names := { slots := [some "method_1", some "x"] }
        parameters := .ofList [(.ofNat 2, {
          index := .ofNat 7
          names := { slots := [some "param_2", none] } })] })] })]

/-- The first pair of samples is merged with two conflicts, which are exchanged the other way round.
The second one is merged without, and gives the same table both ways, as `merge_swap` says. -/
theorem merge_swap_sample :
    SharesSource "intermediary" rootedSample recommentedSample ∧
    SharesSource "intermediary" outerSample recommentedSample ∧
    (∃ ab conflicts ba, (rootedSample.merge recommentedSample).outcome = .ok (ab, conflicts) ∧
      conflicts.map (fun c => (c.subject, c.kept, c.discarded)) =
        [("comment", "entry point", "the start"), ("intermediary", "param_2", "size")] ∧
      (recommentedSample.merge rootedSample).outcome = .ok (ba, conflicts.map Conflict.swap)) ∧
    ∃ ab ba t, (outerSample.merge recommentedSample).outcome = .ok (ab, []) ∧
      (recommentedSample.merge outerSample).outcome = .ok (ba, []) ∧
      ab.namespaces.labels = ["intermediary", "official", "searge"] ∧
      (ba.reorder ["intermediary", "official", "searge"]).outcome = .ok t ∧ t.equiv ab = true := by
  have hrooted : SharesSource "intermediary" rootedSample recommentedSample :=
    ⟨by decide, by decide, by decide, by decide, by decide⟩
  have houter : SharesSource "intermediary" outerSample recommentedSample :=
    ⟨by decide, by decide, by decide, by decide, by decide⟩
  have hmerged : (do
      let ab ← (rootedSample.merge recommentedSample).outcome
      let _ ← (recommentedSample.merge rootedSample).outcome
      return ab.2.map fun (c : Conflict) => (c.subject, c.kept, c.discarded)).toOption =
        some [("comment", "entry point", "the start"), ("intermediary", "param_2", "size")] := by
    -- keys are put into order by a sort that can be evaluated
    simp only [merge, join, Layout.joinClass, Layout.joinMethod,
      unionKeys_eq_insertionSort isKeyOrder_textLe, unionKeys_eq_insertionSort isKeyOrder_memberKey,
      unionKeys_eq_insertionSort isKeyOrder_indexLe]
    decide +kernel
  have hmerged' : (do
      let ab ← (outerSample.merge recommentedSample).outcome
      let _ ← (recommentedSample.merge outerSample).outcome
      return (ab.2, ab.1.namespaces.labels)).toOption =
        some ([], ["intermediary", "official", "searge"]) := by
    simp only [merge, join, Layout.joinClass, Layout.joinMethod,
      unionKeys_eq_insertionSort isKeyOrder_textLe, unionKeys_eq_insertionSort isKeyOrder_memberKey,
      unionKeys_eq_insertionSort isKeyOrder_indexLe]
    decide +kernel
  refine ⟨hrooted, houter, ?_, ?_⟩
  · obtain ⟨⟨ab, conflicts⟩, hab, hrest⟩ := bind_eq_ok_iff.1 (toOption_eq_some_iff.1 hmerged)
    obtain ⟨⟨ba, _⟩, hba, hconflicts⟩ := bind_eq_ok_iff.1 hrest
    obtain ⟨rfl, -⟩ := (merge_swap hrooted).2 _ _ _ _ hab hba
    exact ⟨ab, conflicts, ba, hab, Except.ok.inj hconflicts, hba⟩
  · obtain ⟨⟨ab, conflicts⟩, hab, hrest⟩ := bind_eq_ok_iff.1 (toOption_eq_some_iff.1 hmerged')
    obtain ⟨⟨ba, _⟩, hba, hrest⟩ := bind_eq_ok_iff.1 hrest
    obtain ⟨rfl, hlabels⟩ := Prod.mk.inj (Except.ok.inj hrest)
    obtain ⟨rfl, hsame⟩ := (merge_swap houter).2 _ _ _ _ hab hba
    -- only one of the two has header properties
    obtain ⟨t, ht, hequiv⟩ := hsame rfl fun _ => .of_none (.inr rfl)
    exact ⟨ab, ba, t, hab, hba, hlabels, hlabels ▸ ht, hequiv⟩

/-- An empty name is hidden on the right side and rejected on the left side: `merge_swap` says
nothing of one order alone without `NamesParameters`. -/
theorem merge_swap_unnamed : SharesSource "intermediary" renamedSample unnamedSample ∧
    (∃ merged conflicts, (renamedSample.merge unnamedSample).outcome = .ok (merged, conflicts)) ∧
    ¬∃ merged conflicts, (unnamedSample.merge renamedSample).outcome = .ok (merged, conflicts) := by
  have hshares : SharesSource "intermediary" renamedSample unnamedSample :=
    ⟨by decide, by decide, by decide, by decide, by decide⟩
  have hmerged : (renamedSample.merge unnamedSample).outcome.toOption.isSome = true := by
    simp only [merge, join, Layout.joinClass, Layout.joinMethod,
      unionKeys_eq_insertionSort isKeyOrder_textLe, unionKeys_eq_insertionSort isKeyOrder_memberKey,
      unionKeys_eq_insertionSort isKeyOrder_indexLe]
    decide +kernel
  obtain ⟨⟨merged, conflicts⟩, hmerged⟩ := Option.isSome_iff_exists.1 hmerged
  refine ⟨hshares, ⟨merged, conflicts, toOption_eq_some_iff.1 hmerged⟩, ?_⟩
  rintro ⟨merged, conflicts, hswapped⟩
  -- what can be merged has no empty name on the left side
  have hnames : NamesParameters "intermediary" unnamedSample :=
    MergeableAt.namesParameters (hshares.symm.exists_merge_iff.1 ⟨merged, conflicts, hswapped⟩)
  exact absurd hnames (by decide)

end Table

end MappingTables
