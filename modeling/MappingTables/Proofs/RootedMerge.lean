import MappingTables.Proofs.Conflicts
import MappingTables.Proofs.FittingKeys
import MappingTables.Proofs.SameSource

/-!
# Merging into a table with the shared source namespace

If the left table is rooted at the shared namespace already, merging leaves its keys alone, and what
comes out can be said place by place. Whether merging succeeds is decided place by place, too.

* `Table.MergeableAt`, `Table.exists_merge_iff`: when two tables can be merged.
* `Table.MergedAt`, `Table.isMerged_of_outcome`: what stands at a place of the merged table.
-/

namespace MappingTables

/-- `nameIn` finds a name in a namespace if the entry has one at the position of the namespace. -/
theorem Namespaces.nameIn_eq_some_iff {ns : Namespaces} {label name : String} {names : Names} :
    ns.nameIn label names = some name ↔
      ∃ i, ns.labels[i]? = some label ∧ names.get i = some name := by
  constructor
  · intro h
    by_cases hlabel : label ∈ ns.labels
    · obtain ⟨i, hi⟩ := List.mem_iff_getElem?.1 hlabel
      exact ⟨i, hi, nameIn_eq_get hi names ▸ h⟩
    · rw [nameIn, List.idxOf?_eq_none_iff.2 hlabel] at h
      cases h
  · rintro ⟨i, hi, hname⟩
    rw [nameIn_eq_get hi, hname]

/-- Whether the descriptor of a place `IsClosed`, if there is one: all class names in it end. -/
def Place.IsClosed (p : Place) : Prop :=
  ∀ descriptor ∈ p.descriptor?, Descriptor.IsClosed descriptor

namespace Table

variable {shared : String}

/-- Whether `KeysFit` holds of a table and it has the given source namespace. -/
structure IsRootedAt (shared : String) (t : Table) : Prop where
  fits : t.KeysFit
  source : t.namespaces.source = shared

/-- Two tables of which each `IsRootedAt` the only namespace they share. -/
structure RootedPair (shared : String) (left right : Table) : Prop where
  left_rooted : left.IsRootedAt shared
  right_rooted : right.IsRootedAt shared
  disjoint : ∀ label ∈ left.namespaces.labels, label ∈ right.namespaces.labels → label = shared

/-! ## Names at a place -/

section Names

variable {t : Table} {p : Place}

/-- The label of the namespace at which a table `IsRootedAt` comes first. -/
theorem IsRootedAt.getElem?_zero (h : t.IsRootedAt shared) :
    t.namespaces.labels[0]? = some shared :=
  h.source ▸ t.namespaces.getElem?_zero

/-- `nameAt` finds at a place, in the namespace at which a table `IsRootedAt`, the source name
there. -/
theorem IsRootedAt.nameAt_shared (h : t.IsRootedAt shared) (p : Place) :
    t.nameAt shared p = (t.namesAt p).bind Names.source :=
  congrArg (t.namesAt p).bind (funext (Namespaces.nameIn_eq_get h.getElem?_zero))

/-- The names `besideShared`, beside that in the shared namespace, are those in the other
namespaces. -/
theorem IsRootedAt.mem_besideShared_iff (h : t.IsRootedAt shared) {name : String} :
    some name ∈ besideShared (t.namesAt p) (t.namespaces.size - 1) ↔
      ∃ label, label ≠ shared ∧ t.nameAt label p = some name := by
  cases hnames : t.namesAt p with
  | none =>
    simp only [nameAt_of_namesAt_eq_none hnames]
    refine ⟨fun hmem => ?_, nofun⟩
    cases List.eq_of_mem_replicate hmem
  | some names =>
    have hsize := h.fits.size_eq hnames
    simp only [nameAt, hnames, Option.bind_some, Namespaces.nameIn_eq_some_iff]
    -- beside the shared label, labels and names are the tails of their lists
    rw [besideShared, List.mem_iff_getElem?]
    constructor
    · rintro ⟨i, hi⟩
      rw [List.getElem?_tail] at hi
      have hlt : i + 1 < t.namespaces.size := by
        rw [← hsize]
        exact (List.getElem?_eq_some_iff.1 hi).1
      have hlabel := Namespaces.getElem?_labels hlt
      refine ⟨_, fun hshared => ?_, i + 1, hlabel, by rw [Names.get, hi]; rfl⟩
      rw [hshared] at hlabel
      cases Namespaces.position_unique hlabel h.getElem?_zero
    · rintro ⟨label, hne, i, hlabel, hname⟩
      cases i with
      | zero => exact absurd (Option.some.inj (hlabel.symm.trans h.getElem?_zero)) hne
      | succ i =>
        rw [Names.get, Option.join_eq_some_iff] at hname
        exact ⟨i, by rw [List.getElem?_tail, hname]⟩

variable {left right : Table}

/-- In a `RootedPair` a namespace other than the shared one is one of a single side. -/
theorem RootedPair.nameAt_eq_none (h : RootedPair shared left right) {label : String}
    (hne : label ≠ shared) (p : Place) :
    left.nameAt label p = none ∨ right.nameAt label p = none := by
  by_cases hleft : label ∈ left.namespaces.labels
  · exact .inr (nameAt_of_not_mem (fun hright => hne (h.disjoint label hleft hright)) p)
  · exact .inl (nameAt_of_not_mem hleft p)

/-- The names of two entries of a `RootedPair` side by side are those that one side or the other
gives them. -/
theorem RootedPair.mem_slots_iff (h : RootedPair shared left right) {name : String} :
    some name ∈ (joinLayout left right).slots (left.namesAt p) (right.namesAt p) ↔
      ∃ label, (left.nameAt label p).or (right.nameAt label p) = some name := by
  rw [Layout.slots, List.cons_append, List.mem_cons, List.mem_append, joinLayout,
    h.left_rooted.mem_besideShared_iff, h.right_rooted.mem_besideShared_iff,
    ← h.left_rooted.nameAt_shared, ← h.right_rooted.nameAt_shared]
  constructor
  · rintro (hname | ⟨label, -, hname⟩ | ⟨label, hne, hname⟩)
    · exact ⟨shared, hname.symm⟩
    · exact ⟨label, by rw [hname, Option.some_or]⟩
    · have hnone :=
        (h.nameAt_eq_none hne p).resolve_right (by rw [hname]; exact Option.some_ne_none _)
      exact ⟨label, by rw [hnone, Option.none_or, hname]⟩
  · rintro ⟨label, hname⟩
    by_cases hlabel : label = shared
    · exact .inl (hlabel ▸ hname.symm)
    · rcases Option.or_eq_some_iff.1 hname with hname | ⟨-, hname⟩
      · exact .inr (.inl ⟨label, hlabel, hname⟩)
      · exact .inr (.inr ⟨label, hlabel, hname⟩)

end Names

/-! ## When two tables can be merged -/

/-- Whether what stands at a place of two tables can be merged: entries that are matched by their
names have them, no name is empty, and the descriptor `IsClosed`. -/
structure MergeableAt (shared : String) (left right : Table) (p : Place) : Prop where
  matched : p.keyName?.isSome → (left.namesAt p).isSome → (right.namesAt p).isSome →
    (left.nameAt shared p).isSome ∧ (right.nameAt shared p).isSome
  not_empty : ∀ label, (left.nameAt label p).or (right.nameAt label p) ≠ some ""
  closed : (left.namesAt p).isSome ∨ (right.namesAt p).isSome → p.IsClosed

/-- What stands at a place of a `merged` table: an entry if there is one on one side or both, with
the names and the comment of the left side, or else of the right one. -/
structure MergedAt (left right merged : Table) (p : Place) : Prop where
  isSome : (merged.namesAt p).isSome = ((left.namesAt p).isSome || (right.namesAt p).isSome)
  name : ∀ label, merged.nameAt label p = (left.nameAt label p).or (right.nameAt label p)
  comment : merged.commentAt p = (left.commentAt p).or (right.commentAt p)

/-- What a table is that two tables were `merged` into which are rooted at the `shared`
namespace. -/
structure IsMerged (shared : String) (left right merged : Table) : Prop where
  aligned : merged.IsAligned
  source : merged.namespaces.source = shared
  ascending : merged.IsAscending
  mem_labels : ∀ label, label ∈ merged.namespaces.labels ↔
    label ∈ left.namespaces.labels ∨ label ∈ right.namespaces.labels
  property : ∀ key, merged.properties.get? key =
    (left.properties.get? key).or (right.properties.get? key)
  places : ∀ p, MergedAt left right merged p

/-- A table that `IsMerged` also `IsRootedAt` the shared namespace. -/
theorem IsMerged.rooted {left right merged : Table} (h : IsMerged shared left right merged) :
    merged.IsRootedAt shared :=
  ⟨h.aligned.keysFit, h.source⟩

section Pair

variable {left right joined : Table} (h : RootedPair shared left right)

include h

/-- Entries of a `RootedPair` are `JoinableAt` a place if those that are matched by their names have
them, and no name is empty. -/
theorem RootedPair.joinableAt_iff {p : Place} : JoinableAt left right p ↔
    (p.keyName?.isSome → (left.namesAt p).isSome → (right.namesAt p).isSome →
      (left.nameAt shared p).isSome ∧ (right.nameAt shared p).isSome) ∧
    ∀ label, (left.nameAt label p).or (right.nameAt label p) ≠ some "" := by
  have hmatched : Joinable (left.namesAt p) (right.namesAt p) ↔
      ((left.namesAt p).isSome → (right.namesAt p).isSome →
        (left.nameAt shared p).isSome ∧ (right.nameAt shared p).isSome) := by
    rw [h.left_rooted.nameAt_shared, h.right_rooted.nameAt_shared]
    cases left.namesAt p <;> cases right.namesAt p <;> simp [Joinable]
  have hnames : some "" ∉ (joinLayout left right).slots (left.namesAt p) (right.namesAt p) ↔
      ∀ label, (left.nameAt label p).or (right.nameAt label p) ≠ some "" := by
    rw [h.mem_slots_iff, not_exists]
  exact ⟨fun hp => ⟨fun hkey => hmatched.1 (hp.joinable hkey), hnames.1 hp.not_empty⟩,
    fun hp => ⟨fun hkey => hmatched.2 (hp.1 hkey), hnames.2 hp.2⟩⟩

/-- There are namespaces that are those of a `RootedPair` side by side. -/
theorem RootedPair.exists_namespaces : ∃ namespaces : Namespaces,
    namespaces.labels = left.namespaces.labels ++ right.namespaces.labels.tail := by
  obtain ⟨rest, hrest⟩ : ∃ rest, right.namespaces.labels = shared :: rest :=
    List.head?_eq_some_iff.1 (List.head?_eq_getElem? ▸ h.right_rooted.getElem?_zero)
  obtain ⟨-, hempty, hnodup⟩ := right.namespaces.valid
  rw [hrest, List.nodup_cons] at hnodup
  refine ⟨{ labels := _, valid := ⟨?_, ?_, ?_⟩ }, rfl⟩
  · exact fun hnil => left.namespaces.valid.1 (List.append_eq_nil_iff.1 hnil).1
  · rw [List.mem_append, not_or]
    exact ⟨left.namespaces.valid.2.1, fun hmem => hempty (List.mem_of_mem_tail hmem)⟩
  · rw [hrest, List.tail_cons, List.nodup_append]
    refine ⟨left.namespaces.valid.2.2, hnodup.2, ?_⟩
    rintro label hleft _ hright rfl
    have hlabel := h.disjoint label hleft (hrest ▸ List.mem_cons_of_mem _ hright)
    exact hnodup.1 (hlabel ▸ hright)

section Joined

variable (hjoined : Joined left right joined)

include hjoined

/-- A table that is joined from a `RootedPair` `IsAligned`. -/
theorem RootedPair.isAligned : joined.IsAligned := by
  refine hjoined.obeys.of_at fun p names hnames => ?_
  have hp := (hjoined.at p).names names hnames
  have hsize : names.size = joined.namespaces.size := by
    have hleft : (besideShared (left.namesAt p) (left.namespaces.size - 1)).length =
        left.namespaces.size - 1 :=
      length_besideShared fun _ => h.left_rooted.fits.size_eq
    have hright : (besideShared (right.namesAt p) (right.namespaces.size - 1)).length =
        right.namespaces.size - 1 :=
      length_besideShared fun _ => h.right_rooted.fits.size_eq
    have hpos := (List.getElem?_eq_some_iff.1 h.left_rooted.getElem?_zero).1
    have hjoinedSize : joined.namespaces.size =
        left.namespaces.size + (right.namespaces.size - 1) := by
      rw [Namespaces.size, hjoined.namespaces, List.length_append, List.length_tail]
      rfl
    rw [Names.size, hp.slots, Layout.slots, joinLayout, List.length_append, List.length_cons, hleft,
      hright, hjoinedSize]
    change 0 < left.namespaces.size at hpos
    omega
  refine ⟨fun key hkey => ⟨hsize, fun name hname => ?_⟩, fun _ _ => trivial, fun _ => hsize⟩
  -- the source name is that of one side or the other, and agrees with the key there
  rw [Names.source, hp.get_zero, ← h.left_rooted.nameAt_shared, ← h.right_rooted.nameAt_shared,
    Option.mem_def, Option.or_eq_some_iff] at hname
  rcases hname with hname | ⟨-, hname⟩
  · exact h.left_rooted.fits.nameAt_source hkey (h.left_rooted.source.symm ▸ hname)
  · exact h.right_rooted.fits.nameAt_source hkey (h.right_rooted.source.symm ▸ hname)

/-- A table that is joined from a `RootedPair` follows the `closedRules`, so that all class names in
its descriptors end, if both sides do. -/
theorem RootedPair.obeys_closedRules_iff : joined.Obeys closedRules ↔
    ∀ p, (left.namesAt p).isSome ∨ (right.namesAt p).isSome → p.IsClosed := by
  have hsome : ∀ p, (joined.namesAt p).isSome ↔
      (left.namesAt p).isSome ∨ (right.namesAt p).isSome := by
    intro p
    rw [(hjoined.at p).isSome, Bool.or_eq_true]
  constructor
  · intro hclosed p hp
    obtain ⟨names, hnames⟩ := Option.isSome_iff_exists.1 ((hsome p).2 hp)
    exact (Obeys.at hclosed hnames).descriptor
  · intro hclosed
    refine Obeys.of_at (h.isAligned hjoined) fun p names hnames => ?_
    have hp := hclosed p ((hsome p).1 (Option.isSome_iff_exists.2 ⟨names, hnames⟩))
    exact ⟨fun _ _ => trivial, hp, fun _ => trivial⟩

/-! ## The merged table -/

section Reorder

variable {merged : Table} {labels : List String}
  (hlabels : labels.Perm joined.namespaces.labels) (hhead : labels.head? = some shared)

section Labels

include hlabels

/-- The namespaces of the table that is merged from a `RootedPair` are those of both sides. -/
theorem RootedPair.mem_labels_iff (hmerged : merged.namespaces.labels = labels) {label : String} :
    label ∈ merged.namespaces.labels ↔
      label ∈ left.namespaces.labels ∨ label ∈ right.namespaces.labels := by
  obtain ⟨rest, hrest⟩ := List.head?_eq_some_iff.1
    (List.head?_eq_getElem? ▸ h.right_rooted.getElem?_zero : right.namespaces.labels.head? = _)
  rw [hmerged, hlabels.mem_iff, hjoined.namespaces, List.mem_append, hrest, List.tail_cons,
    List.mem_cons]
  constructor
  · exact fun h => h.imp id .inr
  · rintro (hleft | rfl | hright)
    · exact .inl hleft
    · exact .inl (List.mem_of_getElem? h.left_rooted.getElem?_zero)
    · exact .inr hright

/-- `nameIn` finds the names of both sides in an entry of the table that is merged from a
`RootedPair`. -/
theorem RootedPair.nameIn_pick {positions : List Nat} {p : Place} {names : Names}
    (hpositions : joined.namespaces.positions labels = .ok positions)
    (hmerged : merged.namespaces.labels = labels)
    (hnames : (joinLayout left right).NamesJoined (left.namesAt p) (right.namesAt p) names)
    (label : String) : merged.namespaces.nameIn label (names.pick positions) =
      (left.nameAt label p).or (right.nameAt label p) := by
  have hmem : ∀ label, label ∈ merged.namespaces.labels ↔
      label ∈ left.namespaces.labels ∨ label ∈ right.namespaces.labels :=
    fun _ => h.mem_labels_iff hjoined hlabels hmerged
  have hlayout : MergedNamespaces.IsLayout
      { left := left.namespaces, right := right.namespaces, merged := merged.namespaces, shared }
      (joinLayout left right) joined.namespaces positions :=
    ⟨h.left_rooted.getElem?_zero, h.right_rooted.getElem?_zero, rfl, hjoined.namespaces,
      hmerged.symm ▸ hpositions, fun label hleft => (hmem label).2 (.inl hleft),
      fun label hright => (hmem label).2 (.inr hright)⟩
  have hmergedNames := hlayout.namesMerged hnames fun _ => h.left_rooted.fits.size_eq
  -- any other namespace than the shared one is on one side only, if it is one at all
  by_cases hshared : label = shared
  · exact hshared ▸ hmergedNames.of_shared
  · by_cases hleft : label ∈ left.namespaces.labels
    · have hright := nameAt_of_not_mem (fun hright => hshared (h.disjoint label hleft hright)) p
      rw [hright, Option.or_none]
      exact hmergedNames.of_left label hleft hshared
    · rw [nameAt_of_not_mem hleft p, Option.none_or]
      by_cases hright : label ∈ right.namespaces.labels
      · exact hmergedNames.of_right label hright hshared
      · rw [nameAt_of_not_mem hright p, Namespaces.nameIn, List.idxOf?_eq_none_iff.2,
          Option.bind_none]
        exact fun hlabel => ((hmem label).1 hlabel).elim hleft hright

end Labels

include hhead

/-- `reorder` keeps the source namespace of a table that is joined from a `RootedPair`. -/
theorem RootedPair.outcome_reorder_iff : (joined.reorder labels).outcome = .ok merged ↔
    ∃ positions, joined.namespaces.positions labels = .ok positions ∧
      merged.namespaces.labels = labels ∧ joined.Obeys closedRules ∧
      merged = { joined.mapNames (·.pick positions) with namespaces := merged.namespaces } := by
  refine outcome_reorder_source_iff (h.isAligned hjoined) ?_
  rw [hhead, Namespaces.source_eq_of_append hjoined.namespaces, h.left_rooted.source]

include hlabels

/-- `reorder` can put a table that is joined from a `RootedPair` into any order of its namespaces in
which the source namespace stays first, if it follows the `closedRules`: all class names in
descriptors end. -/
theorem RootedPair.exists_reorder_iff : (∃ merged, (joined.reorder labels).outcome = .ok merged) ↔
    joined.Obeys closedRules := by
  simp only [h.outcome_reorder_iff hjoined hhead]
  constructor
  · rintro ⟨_, _, -, -, hclosed, -⟩
    exact hclosed
  · intro hclosed
    obtain ⟨positions, hpositions⟩ :=
      Namespaces.exists_positions fun label hlabel => hlabels.mem_iff.1 hlabel
    obtain ⟨hnil, hempty, hnodup⟩ := joined.namespaces.valid
    let namespaces : Namespaces := {
      labels
      valid := ⟨fun hlabels' => hnil (List.perm_nil.1 (hlabels' ▸ hlabels.symm)),
        mt hlabels.mem_iff.1 hempty, hlabels.nodup_iff.2 hnodup⟩ }
    exact ⟨{ joined.mapNames (·.pick positions) with namespaces }, positions, hpositions, rfl,
      hclosed, rfl⟩

/-- What `reorder` makes of a table that is joined from a `RootedPair` `IsMerged`. -/
theorem RootedPair.isMerged (hmerged : (joined.reorder labels).outcome = .ok merged) :
    IsMerged shared left right merged := by
  obtain ⟨positions, hpositions, hmergedLabels, -, hmapped⟩ :=
    (h.outcome_reorder_iff hjoined hhead).1 hmerged
  obtain ⟨-, _, _, -, hreordered⟩ := outcome_reorder_eq_ok_iff.1 hmerged
  refine ⟨hreordered.isAligned, ?_, ?_,
    fun _ => h.mem_labels_iff hjoined hlabels hmergedLabels, fun key => ?_, fun p => ?_⟩
  · have hzero := merged.namespaces.getElem?_zero
    rw [hmergedLabels, ← List.head?_eq_getElem?, hhead] at hzero
    exact (Option.some.inj hzero).symm
  · have hascending := hjoined.isAscending.mapNames (·.pick positions)
    rw [hmapped]
    exact ⟨hascending.classes, hascending.members⟩
  · rw [hreordered.properties, hjoined.properties, get?_joinProperties]
  -- the reorder picks names at other positions and leaves everything else as it is
  · have hp := hjoined.at p
    have hnames : merged.namesAt p = (joined.namesAt p).map (·.pick positions) := by
      rw [hmapped]
      exact namesAt_mapNames _ joined p
    have hcomment : merged.commentAt p = joined.commentAt p := by
      rw [hmapped]
      exact commentAt_mapNames _ joined p
    refine ⟨?_, fun label => ?_, hcomment.trans hp.comment⟩
    · rw [hnames, Option.isSome_map, hp.isSome]
    · rw [nameAt, hnames, Option.bind_map]
      cases hjoinedNames : joined.namesAt p with
      | none =>
        obtain ⟨hleft, hright⟩ := hjoined.nameAt_eq_none hjoinedNames label
        rw [hleft, hright]
        rfl
      | some names =>
        exact h.nameIn_pick hjoined hlabels hpositions hmergedLabels
          (hp.names names hjoinedNames) label

end Reorder

end Joined

end Pair

/-! ## Tables that are merged -/

section Merge

variable {a b right merged : Table} {conflicts : List Conflict}

/-- `sharedLabels` are a single label exactly if it and no other one is in both tables. -/
theorem sharedLabels_eq_singleton_iff : sharedLabels a b = [shared] ↔
    ∀ label, label ∈ a.namespaces.labels ∧ label ∈ b.namespaces.labels ↔ label = shared := by
  have hmem : ∀ label, label ∈ sharedLabels a b ↔
      label ∈ a.namespaces.labels ∧ label ∈ b.namespaces.labels := by
    intro label
    rw [sharedLabels, List.mem_filter, decide_eq_true_iff]
  simp only [← hmem]
  constructor
  · intro h label
    rw [h, List.mem_singleton]
  · intro h
    have hnodup : (sharedLabels a b).Nodup := a.namespaces.valid.2.2.filter _
    refine List.perm_singleton.1 ((List.perm_ext_iff_of_nodup hnodup (List.nodup_singleton _)).2 ?_)
    simpa using h

/-- `sharedLabels` that are a single label are so the other way round, too. -/
theorem sharedLabels_swap (h : sharedLabels a b = [shared]) : sharedLabels b a = [shared] :=
  sharedLabels_eq_singleton_iff.2 fun label =>
    and_comm.trans (sharedLabels_eq_singleton_iff.1 h label)

/-- Tables that are each `IsRootedAt` a label make a `RootedPair` if they have the namespaces of two
tables that share no other label. -/
theorem rootedPair_of_perm {left : Table} (hleft : left.IsRootedAt shared)
    (hright : right.IsRootedAt shared)
    (hleftPerm : left.namespaces.labels.Perm a.namespaces.labels)
    (hrightPerm : right.namespaces.labels.Perm b.namespaces.labels)
    (hshared : sharedLabels a b = [shared]) : RootedPair shared left right where
  left_rooted := hleft
  right_rooted := hright
  disjoint label hl hr :=
    (sharedLabels_eq_singleton_iff.1 hshared label).1
      ⟨hleftPerm.mem_iff.1 hl, hrightPerm.mem_iff.1 hr⟩

/-- `switchSource` to the source namespace changes nothing. -/
theorem outcome_switchSource_source (ha : a.namespaces.source = shared) :
    (a.switchSource shared).outcome = .ok a :=
  outcome_switchSource_eq_ok_iff.2 ⟨0, ha ▸ a.namespaces.getElem?_zero, .inl ⟨rfl, rfl⟩⟩

/-- Tables of which the left one has the shared source namespace are merged by `join` of it with the
right one as it is after `switchSource`. -/
theorem outcome_merge_iff_of_source (ha : a.namespaces.source = shared)
    (hshared : sharedLabels a b = [shared]) : (a.merge b).outcome = .ok (merged, conflicts) ↔
    ∃ right joined, (b.switchSource shared).outcome = .ok right ∧
      (join a right).outcome = .ok joined ∧ (join a right).notes = conflicts ∧
      (joined.reorder (mergedLabels a b shared)).outcome = .ok merged := by
  rw [outcome_merge_eq_ok_iff hshared, outcome_switchSource_source ha]
  constructor
  · rintro ⟨_, right, joined, hleft, hright, hjoined, hnotes, hmerged⟩
    obtain rfl := Except.ok.inj hleft
    exact ⟨right, joined, hright, hjoined, hnotes, hmerged⟩
  · rintro ⟨right, joined, hright, hjoined, hnotes, hmerged⟩
    exact ⟨a, right, joined, rfl, hright, hjoined, hnotes, hmerged⟩

/-- A table that is `Switched` to a namespace `IsRootedAt` it. -/
theorem Switched.isRootedAt {t t' : Table} {position : Nat} {label : String}
    (h : t.Switched position t') (hlabel : t.namespaces.labels[position]? = some label)
    (ht : t.KeysFit) : t'.IsRootedAt label where
  fits := h.keysFit ht
  source := Option.some.inj (t'.namespaces.getElem?_zero.symm.trans (h.getElem?_labels_zero hlabel))

variable (ha : a.IsRootedAt shared) (hb : b.KeysFit) (hshared : sharedLabels a b = [shared])

include ha hb hshared

/-- A table that `switchSource` switched to the namespace it shares makes a `RootedPair`. -/
theorem rootedPair_of_switchSource (hright : (b.switchSource shared).outcome = .ok right) :
    RootedPair shared a right ∧ right.namespaces.labels.Perm b.namespaces.labels ∧
      right.properties = b.properties := by
  obtain ⟨i, hi, hswitched⟩ := switched_of_outcome hright
  have hperm := hswitched.perm_labels (List.getElem?_eq_some_iff.1 hi).1
  exact ⟨rootedPair_of_perm ha (hswitched.isRootedAt hi hb) (List.Perm.refl _) hperm hshared, hperm,
    hswitched.properties_eq⟩

omit hb hshared in
/-- The first of the `mergedLabels` is that of the source namespace of the left table. -/
theorem head?_mergedLabels : (mergedLabels a b shared).head? = some shared := by
  rw [mergedLabels, List.head?_append, List.head?_eq_getElem?, ha.getElem?_zero, Option.some_or]

omit ha hb hshared in
/-- The `mergedLabels` are those of the joined table in another order. -/
theorem perm_mergedLabels (hright : right.IsRootedAt shared)
    (hperm : right.namespaces.labels.Perm b.namespaces.labels) :
    (mergedLabels a b shared).Perm (a.namespaces.labels ++ right.namespaces.labels.tail) := by
  obtain ⟨rest, hrest⟩ : ∃ rest, right.namespaces.labels = shared :: rest :=
    List.head?_eq_some_iff.1 (List.head?_eq_getElem? ▸ hright.getElem?_zero)
  have hnodup := right.namespaces.valid.2.2
  rw [hrest, List.nodup_cons] at hnodup
  have hfilter : right.namespaces.labels.filter (· ≠ shared) = rest := by
    rw [hrest, List.filter_cons_of_neg (by simp), List.filter_eq_self]
    exact fun label hlabel => decide_eq_true fun hshared => hnodup.1 (hshared ▸ hlabel)
  rw [mergedLabels, List.perm_append_left_iff, hrest, List.tail_cons, ← hfilter]
  exact hperm.symm.filter _

/-- `merge` succeeds exactly if `switchSource` can switch the right table to the shared namespace,
and what stands at each place is `MergeableAt` it. -/
theorem exists_merge_iff : (∃ merged conflicts, (a.merge b).outcome = .ok (merged, conflicts)) ↔
    ∃ right, (b.switchSource shared).outcome = .ok right ∧ ∀ p, MergeableAt shared a right p := by
  simp only [outcome_merge_iff_of_source ha.source hshared]
  constructor
  · rintro ⟨merged, _, right, joined, hright, hjoined, -, hmerged⟩
    obtain ⟨hpair, hperm, -⟩ := rootedPair_of_switchSource ha hb hshared hright
    have hjoined := joined_of_outcome hjoined
    have hlabels := hjoined.namespaces ▸ perm_mergedLabels (a := a) hpair.right_rooted hperm
    -- once the join is made, only an open descriptor stands in the way of the reorder
    have hclosed :=
      (hpair.exists_reorder_iff hjoined hlabels (head?_mergedLabels ha)).1 ⟨_, hmerged⟩
    refine ⟨right, hright, fun p => ?_⟩
    have hjoinable := (exists_joined_iff hjoined.namespaces).1 ⟨joined, hjoined⟩ p
    obtain ⟨hmatched, hempty⟩ := hpair.joinableAt_iff.1 hjoinable
    exact ⟨hmatched, hempty, (hpair.obeys_closedRules_iff hjoined).1 hclosed p⟩
  · rintro ⟨right, hright, hp⟩
    obtain ⟨hpair, hperm, -⟩ := rootedPair_of_switchSource ha hb hshared hright
    obtain ⟨namespaces, hnamespaces⟩ := hpair.exists_namespaces
    obtain ⟨joined, hjoined⟩ := (exists_joined_iff hnamespaces).2 fun p =>
      hpair.joinableAt_iff.2 ⟨(hp p).matched, (hp p).not_empty⟩
    have hlabels := hjoined.namespaces ▸ perm_mergedLabels (a := a) hpair.right_rooted hperm
    have hclosed := (hpair.obeys_closedRules_iff hjoined).2 fun p => (hp p).closed
    obtain ⟨merged, hmerged⟩ :=
      (hpair.exists_reorder_iff hjoined hlabels (head?_mergedLabels ha)).2 hclosed
    have hsize := fun e he => (hpair.isAligned hjoined e he).names.1
    exact ⟨merged, _, right, joined, hright, outcome_join_eq_ok_iff.2 ⟨hjoined, hsize⟩,
      rfl, hmerged⟩

/-- The table that `merge` gives `IsMerged`, and there is no conflict exactly if the two agree at
each place. -/
theorem isMerged_of_outcome (h : (a.merge b).outcome = .ok (merged, conflicts)) : ∃ right,
    (b.switchSource shared).outcome = .ok right ∧ (∀ p, MergeableAt shared a right p) ∧
      IsMerged shared a right merged ∧ (conflicts = [] ↔ ∀ p, AgreeAt a right p) := by
  obtain ⟨_, hright', hmergeable⟩ := (exists_merge_iff ha hb hshared).1 ⟨merged, conflicts, h⟩
  obtain ⟨right, joined, hright, hjoined, rfl, hmerged⟩ :=
    (outcome_merge_iff_of_source ha.source hshared).1 h
  obtain rfl := Except.ok.inj (hright'.symm.trans hright)
  obtain ⟨hpair, hperm, -⟩ := rootedPair_of_switchSource ha hb hshared hright
  have hjoined' := joined_of_outcome hjoined
  have hlabels := hjoined'.namespaces ▸ perm_mergedLabels (a := a) hpair.right_rooted hperm
  exact ⟨_, hright, hmergeable, hpair.isMerged hjoined' hlabels (head?_mergedLabels ha) hmerged,
    notes_join_eq_nil_iff hjoined⟩

end Merge

end Table

end MappingTables
