import MappingTables.Proofs.Alike

/-!
# The order of merging

Two tables can be merged into a third one in either order, if all three meet in the source namespace
of the third one.

* `Table.CompatibleAt`: what stands at a place of three tables can be merged.
* `Table.NamesParameters`: no parameter has an empty name.
* `Table.exists_merge_merge_iff`: when two tables can be merged into a third one.
* `Table.merge_merge_comm`: the order of merging does not matter.
-/

namespace MappingTables

/-! ## Values that agree -/

section Agree

variable {α : Type} {x y z : Option α}

theorem Agree.symm (h : Agree x y) : Agree y x :=
  fun b hb a ha => (h a ha b hb).symm

/-- Of values that `Agree` it does not matter which one counts. -/
theorem Agree.or_comm (h : Agree x y) : x.or y = y.or x := by
  cases x with
  | none => simp
  | some a =>
    cases y with
    | none => rfl
    | some b => exact congrArg some (h a rfl b rfl)

/-- What agrees with one of two values that `Agree`, agrees with both. -/
theorem Agree.or_left_iff (h : Agree x y) : Agree (x.or y) z ↔ Agree x z ∧ Agree y z := by
  cases x with
  | none => exact ⟨fun hz => ⟨.of_none (.inl rfl), hz⟩, And.right⟩
  | some a =>
    refine ⟨fun hz => ⟨hz, fun b hb => ?_⟩, And.left⟩
    obtain rfl := h a rfl b hb
    exact hz a rfl

/-- Three values, of which the last two `Agree`, can be taken in either order. -/
theorem Agree.or_right_comm (h : Agree y z) : (x.or y).or z = (x.or z).or y := by
  rw [Option.or_assoc, h.or_comm, Option.or_assoc]

end Agree

namespace Table

variable {shared : String}

/-! ## What can be merged -/

/-- Whether what stands at a place of two tables has names in the `shared` namespace, if it stands
in both of them and is matched by these names. -/
def MatchedAt (shared : String) (s t : Table) (p : Place) : Prop :=
  p.keyName?.isSome → (s.namesAt p).isSome → (t.namesAt p).isSome →
    (s.nameAt shared p).isSome ∧ (t.nameAt shared p).isSome

/-- Whether what stands at a place has no empty name, and its descriptor `IsClosed`: all class names
in it end. -/
structure SoundAt (t : Table) (p : Place) : Prop where
  not_empty : ∀ label, t.nameAt label p ≠ some ""
  closed : (t.namesAt p).isSome → p.IsClosed

/-! ## Parameters without empty names -/

/-- Whether no parameter has an empty name in the namespace with a label. Names are made of slots or
of texts, and `Names.ofSlots` rejects an empty name while `Names.ofTexts` takes it for an absent
one. -/
def NamesParameters (label : String) (t : Table) : Prop :=
  ∀ owner key index, t.nameAt label (.parameter owner key index) ≠ some ""

/-- The rules by which no parameter has an empty name in the namespace with a `label`. -/
def nonemptyRules (ns : Namespaces) (label : String) : EntryRules where
  parameter names := ns.nameIn label names ≠ some ""

section NamesParameters

variable {label : String} {t : Table}

theorem namesParameters_iff :
    NamesParameters label t ↔ t.NamesObey (nonemptyRules t.namespaces label) := by
  constructor
  · rintro h ⟨owner, c⟩ hc
    refine ⟨trivial, fun _ _ => trivial, ?_⟩
    rintro ⟨key, m⟩ hm
    refine ⟨trivial, ?_⟩
    rintro ⟨index, parameter⟩ hp
    have hname := h owner key index
    rwa [nameAt, namesAt_parameter (namesAt_method hc hm).1 hp] at hname
  · intro h owner key index hname
    obtain ⟨names, hnames, hname⟩ := Option.bind_eq_some_iff.1 hname
    exact (h.at hnames).2 rfl hname

instance (ns : Namespaces) (label key : String) (names : Names) :
    Decidable ((nonemptyRules ns label).keyed key names) :=
  inferInstanceAs (Decidable True)

instance (ns : Namespaces) (label : String) (names : Names) :
    Decidable ((nonemptyRules ns label).parameter names) :=
  inferInstanceAs (Decidable (_ ≠ _))

instance (t : Table) (ns : Namespaces) (label : String) :
    Decidable (t.NamesObey (nonemptyRules ns label)) :=
  inferInstanceAs (Decidable (∀ _ ∈ _, _))

instance (label : String) (t : Table) : Decidable (NamesParameters label t) :=
  decidable_of_iff _ namesParameters_iff.symm

/-- What has no `keyName?` is a parameter, which has no empty name in a table that
`NamesParameters`. -/
theorem NamesParameters.nameAt_ne {p : Place} (h : NamesParameters label t)
    (hkey : p.keyName? = none) : t.nameAt label p ≠ some "" := by
  cases p with
  | classEntry key => exact absurd hkey (Option.some_ne_none _)
  | field owner key => exact absurd hkey (Option.some_ne_none _)
  | method owner key => exact absurd hkey (Option.some_ne_none _)
  | parameter owner key index => exact h owner key index

/-- A table that `NamesParameters` still does so after `switchSource`. -/
theorem NamesParameters.switchSource {right : Table} (h : NamesParameters shared t)
    (hright : (t.switchSource shared).outcome = .ok right) : NamesParameters shared right := by
  obtain ⟨i, hi, hswitched⟩ := switched_of_outcome hright
  have hzero := hswitched.getElem?_labels_zero hi
  cases hswitched with
  | refl => exact h
  | reordered _ hreordered =>
    have hlt : i < t.namespaces.size := (List.getElem?_eq_some_iff.1 hi).1
    -- the name comes first now, and was at the position of the namespace
    have hpick : ∀ names, (nonemptyRules t.namespaces shared).parameter names →
        (nonemptyRules right.namespaces shared).parameter
          (names.pick (exchanged t.namespaces.size i)) := by
      intro names hname
      change right.namespaces.nameIn shared _ ≠ _
      rw [Namespaces.nameIn_eq_get hzero, Names.get_pick (getElem?_exchanged_zero hlt),
        ← Namespaces.nameIn_eq_get hi]
      exact hname
    exact namesParameters_iff.2 (hreordered.obeys (fun _ _ _ => trivial) (fun _ => trivial) hpick
      (namesParameters_iff.1 h)).namesObey

end NamesParameters

/-! ## Pairs of tables -/

section Pair

variable {s t m : Table} {p : Place}

theorem MatchedAt.symm (h : MatchedAt shared s t p) : MatchedAt shared t s p :=
  fun hkey ht hs => (h hkey hs ht).symm

/-- In a `RootedPair`, where `t` has an empty name, `s` has no other name. -/
theorem RootedPair.eq_none_or_of_empty (h : RootedPair shared s t) (ht : NamesParameters shared t)
    {label : String} (hempty : t.nameAt label p = some "") :
    s.nameAt label p = none ∨ s.nameAt label p = some "" := by
  by_cases hlabel : label = shared
  · subst hlabel
    cases hkey : p.keyName? with
    | none => exact absurd hempty (ht.nameAt_ne hkey)
    | some key =>
      -- both names are the one in the key
      have hright := h.right_rooted.fits.nameAt_source hkey (h.right_rooted.source.symm ▸ hempty)
      cases hname : s.nameAt label p with
      | none => exact .inl rfl
      | some name =>
        have hleft := h.left_rooted.fits.nameAt_source hkey (h.left_rooted.source.symm ▸ hname)
        exact .inr (congrArg some (hleft.trans hright.symm))
  · refine .inl ((h.nameAt_eq_none hlabel p).resolve_right ?_)
    rw [hempty]
    exact Option.some_ne_none _

/-- In a `RootedPair`, what stands at a place is `MergeableAt` it if it is `MatchedAt` by names that
are there, and `SoundAt` on both sides. -/
theorem RootedPair.mergeableAt_iff (h : RootedPair shared s t) (ht : NamesParameters shared t) :
    MergeableAt shared s t p ↔ MatchedAt shared s t p ∧ SoundAt s p ∧ SoundAt t p := by
  constructor
  · rintro ⟨hmatched, hempty, hclosed⟩
    refine ⟨hmatched, ⟨fun label hs => ?_, fun hs => hclosed (.inl hs)⟩,
      ⟨fun label hlabel => ?_, fun ht => hclosed (.inr ht)⟩⟩
    · exact hempty label (by rw [hs, Option.some_or])
    · rcases h.eq_none_or_of_empty ht hlabel with hs | hs
      · exact hempty label (by rw [hs, Option.none_or, hlabel])
      · exact hempty label (by rw [hs, Option.some_or])
  · rintro ⟨hmatched, hs, ht⟩
    refine ⟨hmatched, fun label hor => ?_, fun hp => hp.elim hs.closed ht.closed⟩
    rcases Option.or_eq_some_iff.1 hor with hname | ⟨-, hname⟩
    · exact hs.not_empty label hname
    · exact ht.not_empty label hname

/-- An entry that is `MergedAt` a place is `SoundAt` if both sides are. -/
theorem MergedAt.soundAt (h : MergedAt s t m p) (hs : SoundAt s p) (ht : SoundAt t p) :
    SoundAt m p := by
  refine ⟨fun label hor => ?_, fun hm => ?_⟩
  · rw [h.name, Option.or_eq_some_iff] at hor
    exact hor.elim (hs.not_empty label) fun hname => ht.not_empty label hname.2
  · rw [h.isSome, Bool.or_eq_true] at hm
    exact hm.elim hs.closed ht.closed

/-- An entry that is `MergedAt` a place is `MatchedAt` with a third one exactly if both sides
are. -/
theorem MergedAt.matchedAt_iff {u : Table} (h : MergedAt s t m p) (hst : MatchedAt shared s t p) :
    MatchedAt shared m u p ↔ MatchedAt shared s u p ∧ MatchedAt shared t u p := by
  -- an entry that is not there has no name
  have hnone : ∀ {t : Table}, ¬ (t.namesAt p).isSome → t.nameAt shared p = none := fun hnames =>
    nameAt_of_namesAt_eq_none (Option.not_isSome_iff_eq_none.1 hnames)
  simp only [MatchedAt, h.isSome, h.name, Bool.or_eq_true, Option.isSome_or]
  constructor
  · intro hm
    constructor
    · intro hkey hs hu
      obtain ⟨hname, huname⟩ := hm hkey (.inl hs) hu
      refine ⟨?_, huname⟩
      by_cases ht : (t.namesAt p).isSome
      · exact (hst hkey hs ht).1
      · exact hname.resolve_right (by rw [hnone ht]; nofun)
    · intro hkey ht hu
      obtain ⟨hname, huname⟩ := hm hkey (.inr ht) hu
      refine ⟨?_, huname⟩
      by_cases hs : (s.namesAt p).isSome
      · exact (hst hkey hs ht).2
      · exact hname.resolve_left (by rw [hnone hs]; nofun)
  · rintro ⟨hsu, htu⟩ hkey (hs | ht) hu
    · exact (hsu hkey hs hu).imp .inl id
    · exact (htu hkey ht hu).imp .inr id

end Pair

/-- Whether what stands at a place of three tables can be merged: it is `MatchedAt` the place, and
`SoundAt` it. -/
structure CompatibleAt (shared : String) (s t u : Table) (p : Place) : Prop where
  matched_left : MatchedAt shared s t p
  matched_outer : MatchedAt shared s u p
  matched_right : MatchedAt shared t u p
  sound_left : SoundAt s p
  sound_middle : SoundAt t p
  sound_right : SoundAt u p

/-- Three tables are `CompatibleAt` a place in either order of the last two. -/
theorem CompatibleAt.swap {s t u : Table} {p : Place} (h : CompatibleAt shared s t u p) :
    CompatibleAt shared s u t p :=
  ⟨h.matched_outer, h.matched_left, h.matched_right.symm, h.sound_left, h.sound_right,
    h.sound_middle⟩

/-- What is `MergeableAt` a place one after the other is `CompatibleAt` it. -/
theorem compatibleAt_iff {s t u m : Table} {p : Place} (hst : RootedPair shared s t)
    (hmu : RootedPair shared m u) (hm : MergedAt s t m p) (ht : NamesParameters shared t)
    (hu : NamesParameters shared u) :
    MergeableAt shared s t p ∧ MergeableAt shared m u p ↔ CompatibleAt shared s t u p := by
  rw [hst.mergeableAt_iff ht, hmu.mergeableAt_iff hu]
  constructor
  · rintro ⟨⟨hst, hs, ht⟩, hmu, -, hu⟩
    obtain ⟨hsu, htu⟩ := (hm.matchedAt_iff hst).1 hmu
    exact ⟨hst, hsu, htu, hs, ht, hu⟩
  · intro h
    exact ⟨⟨h.matched_left, h.sound_left, h.sound_middle⟩,
      (hm.matchedAt_iff h.matched_left).2 ⟨h.matched_outer, h.matched_right⟩,
      hm.soundAt h.sound_left h.sound_middle, h.sound_right⟩

/-! ## What comes out -/

section Agree

variable {s t u m n x y : Table} {p : Place}

theorem AgreeAt.symm (h : AgreeAt s t p) : AgreeAt t s p :=
  ⟨h.source.symm, h.comment.symm⟩

/-- The tables of a `RootedPair` agree in all names if they do so in those of the one namespace that
they share, which `AgreeAt` says. -/
theorem RootedPair.agree_of_agreeAt (h : RootedPair shared s t) (hagree : AgreeAt s t p)
    (label : String) : Agree (s.nameAt label p) (t.nameAt label p) := by
  by_cases hlabel : label = shared
  · rw [hlabel, h.left_rooted.nameAt_shared, h.right_rooted.nameAt_shared]
    exact hagree.source
  · exact .of_none (h.nameAt_eq_none hlabel p)

/-- In a `RootedPair` where what stands at each place is `MergeableAt` it and agrees, the right
table `NamesParameters`: an empty name of a parameter there would be the one of the merged table. -/
theorem RootedPair.namesParameters (h : RootedPair shared s t)
    (hmergeable : ∀ p, MergeableAt shared s t p) (hagree : ∀ p, AgreeAt s t p) :
    NamesParameters shared t := by
  intro owner key index hempty
  have hnot := (hmergeable (.parameter owner key index)).not_empty shared
  have hnames := h.agree_of_agreeAt (hagree (.parameter owner key index)) shared
  cases hname : s.nameAt shared (.parameter owner key index) with
  | none => exact hnot (by rw [hname, Option.none_or, hempty])
  | some name =>
    -- the left name is kept, and it is empty as well, or there is a conflict
    obtain rfl := hnames name hname "" hempty
    exact hnot (by rw [hname, Option.some_or])

/-- An entry that is `MergedAt` a place agrees with a third one exactly if both sides do. -/
theorem MergedAt.agreeAt_iff (h : MergedAt s t m p) (hpair : RootedPair shared s t)
    (hm : m.IsRootedAt shared) (hst : AgreeAt s t p) :
    AgreeAt m u p ↔ AgreeAt s u p ∧ AgreeAt t u p := by
  have hnames :=
    (hpair.agree_of_agreeAt hst shared).or_left_iff (z := (u.namesAt p).bind Names.source)
  have hcomments := hst.comment.or_left_iff (z := u.commentAt p)
  rw [← h.name, hm.nameAt_shared, hpair.left_rooted.nameAt_shared,
    hpair.right_rooted.nameAt_shared] at hnames
  rw [← h.comment] at hcomments
  constructor
  · rintro ⟨hname, hcomment⟩
    exact ⟨⟨(hnames.1 hname).1, (hcomments.1 hcomment).1⟩,
      ⟨(hnames.1 hname).2, (hcomments.1 hcomment).2⟩⟩
  · rintro ⟨⟨hname, hcomment⟩, ⟨hname', hcomment'⟩⟩
    exact ⟨hnames.2 ⟨hname, hname'⟩, hcomments.2 ⟨hcomment, hcomment'⟩⟩

/-- Tables into which the two of a `RootedPair` are merged in either order are `Alike`, if these two
agree. -/
theorem alike_of_isMerged (hpair : RootedPair shared t u) (hm : IsMerged shared s t m)
    (hx : IsMerged shared m u x) (hn : IsMerged shared s u n) (hy : IsMerged shared n t y)
    (hagree : ∀ p, AgreeAt t u p)
    (hproperty : ∀ key, Agree (t.properties.get? key) (u.properties.get? key)) : x.Alike y where
  left_aligned := hx.aligned
  right_aligned := hy.aligned
  left_ascending := hx.ascending
  right_ascending := hy.ascending
  mem_labels label := by
    rw [hx.mem_labels, hm.mem_labels, hy.mem_labels, hn.mem_labels, or_right_comm]
  property key := by
    rw [hx.property, hm.property, hy.property, hn.property, (hproperty key).or_right_comm]
  isSome p := by
    rw [(hx.places p).isSome, (hm.places p).isSome, (hy.places p).isSome, (hn.places p).isSome,
      Bool.or_right_comm]
  name label p := by
    rw [(hx.places p).name, (hm.places p).name, (hy.places p).name, (hn.places p).name,
      (hpair.agree_of_agreeAt (hagree p) label).or_right_comm]
  comment p := by
    rw [(hx.places p).comment, (hm.places p).comment, (hy.places p).comment, (hn.places p).comment,
      (hagree p).comment.or_right_comm]

end Agree

/-! ## Merging into one table -/

/-- Two tables `b` and `c` that are to be merged into a third one `a`, which is rooted at the only
namespace that each two of them share. `KeysFit` holds of all three. -/
structure MeetAt (shared : String) (a b c : Table) : Prop where
  source : a.namespaces.source = shared
  left_fits : a.KeysFit
  middle_fits : b.KeysFit
  right_fits : c.KeysFit
  shared_left : sharedLabels a b = [shared]
  shared_outer : sharedLabels a c = [shared]
  shared_right : sharedLabels b c = [shared]

namespace MeetAt

variable {a b c middle last ab : Table} (h : MeetAt shared a b c)

include h

/-- Three tables `MeetAt` a namespace in either order of the last two. -/
theorem swap : MeetAt shared a c b where
  source := h.source
  left_fits := h.left_fits
  middle_fits := h.right_fits
  right_fits := h.middle_fits
  shared_left := h.shared_outer
  shared_outer := h.shared_left
  shared_right := sharedLabels_swap h.shared_right

/-- The table into which the others are merged is `IsRootedAt` the shared namespace. -/
theorem rooted : a.IsRootedAt shared :=
  ⟨h.left_fits, h.source⟩

/-- A table that `IsMerged` shares the same namespace with the third one. -/
theorem sharedLabels_merged (hmiddle : (b.switchSource shared).outcome = .ok middle)
    (hmerged : IsMerged shared a middle ab) : sharedLabels ab c = [shared] := by
  obtain ⟨-, hperm, -⟩ :=
    rootedPair_of_switchSource h.rooted h.middle_fits h.shared_left hmiddle
  have houter := sharedLabels_eq_singleton_iff.1 h.shared_outer
  have hright := sharedLabels_eq_singleton_iff.1 h.shared_right
  refine sharedLabels_eq_singleton_iff.2 fun label => ?_
  rw [hmerged.mem_labels, hperm.mem_iff, or_and_right, houter, hright, or_self]

/-- The other two tables make a `RootedPair`, too. -/
theorem rootedPair (hmiddle : (b.switchSource shared).outcome = .ok middle)
    (hlast : (c.switchSource shared).outcome = .ok last) : RootedPair shared middle last := by
  obtain ⟨hpair, hperm, -⟩ :=
    rootedPair_of_switchSource h.rooted h.middle_fits h.shared_left hmiddle
  refine (rootedPair_of_switchSource hpair.right_rooted h.right_fits ?_ hlast).1
  simpa only [sharedLabels_eq_singleton_iff, hperm.mem_iff] using h.shared_right

section NamesParameters

variable
  (hb : ∀ middle, (b.switchSource shared).outcome = .ok middle → NamesParameters shared middle)
  (hc : ∀ last, (c.switchSource shared).outcome = .ok last → NamesParameters shared last)

include hb hc

/-- Two tables can be merged into a third one exactly if `switchSource` can switch them to the
shared namespace, and what stands at each place of the three tables is `CompatibleAt` it. -/
theorem exists_merge_merge_iff :
    (∃ ab conflicts abc conflicts', (a.merge b).outcome = .ok (ab, conflicts) ∧
      (ab.merge c).outcome = .ok (abc, conflicts')) ↔
    ∃ middle last, (b.switchSource shared).outcome = .ok middle ∧
      (c.switchSource shared).outcome = .ok last ∧ ∀ p, CompatibleAt shared a middle last p := by
  -- place by place, the two merges come to one condition on the three tables
  have hcompatible : ∀ {middle last ab : Table}, (b.switchSource shared).outcome = .ok middle →
      (c.switchSource shared).outcome = .ok last → IsMerged shared a middle ab → ∀ p,
        (MergeableAt shared a middle p ∧ MergeableAt shared ab last p ↔
          CompatibleAt shared a middle last p) := by
    intro middle last ab hmiddle hlast hmerged p
    obtain ⟨hpair, -, -⟩ :=
      rootedPair_of_switchSource h.rooted h.middle_fits h.shared_left hmiddle
    obtain ⟨hpair', -, -⟩ := rootedPair_of_switchSource hmerged.rooted h.right_fits
      (h.sharedLabels_merged hmiddle hmerged) hlast
    exact compatibleAt_iff hpair hpair' (hmerged.places p) (hb middle hmiddle) (hc last hlast)
  constructor
  · rintro ⟨ab, _, abc, _, hab, habc⟩
    obtain ⟨middle, hmiddle, hmergeable, hmerged, -⟩ :=
      isMerged_of_outcome h.rooted h.middle_fits h.shared_left hab
    obtain ⟨last, hlast, hmergeable', -, -⟩ := isMerged_of_outcome hmerged.rooted h.right_fits
      (h.sharedLabels_merged hmiddle hmerged) habc
    exact ⟨middle, last, hmiddle, hlast, fun p =>
      (hcompatible hmiddle hlast hmerged p).1 ⟨hmergeable p, hmergeable' p⟩⟩
  · rintro ⟨middle, last, hmiddle, hlast, hp⟩
    -- the second merge is about the result of the first, so that has to be made before
    obtain ⟨hpair, -, -⟩ :=
      rootedPair_of_switchSource h.rooted h.middle_fits h.shared_left hmiddle
    obtain ⟨ab, conflicts, hab⟩ := (exists_merge_iff h.rooted h.middle_fits h.shared_left).2
      ⟨middle, hmiddle, fun p => (hpair.mergeableAt_iff (hb middle hmiddle)).2
        ⟨(hp p).matched_left, (hp p).sound_left, (hp p).sound_middle⟩⟩
    obtain ⟨_, hmiddle', -, hmerged, -⟩ :=
      isMerged_of_outcome h.rooted h.middle_fits h.shared_left hab
    obtain rfl := Except.ok.inj (hmiddle'.symm.trans hmiddle)
    obtain ⟨abc, conflicts', habc⟩ := (exists_merge_iff hmerged.rooted h.right_fits
      (h.sharedLabels_merged hmiddle hmerged)).2
        ⟨last, hlast, fun p => ((hcompatible hmiddle hlast hmerged p).2 (hp p)).2⟩
    exact ⟨ab, conflicts, abc, conflicts', hab, habc⟩

/-- It does not matter for the success of `merge` in which order two tables are merged into a third
one. -/
theorem exists_merge_merge_swap :
    (∃ ab conflicts abc conflicts', (a.merge b).outcome = .ok (ab, conflicts) ∧
      (ab.merge c).outcome = .ok (abc, conflicts')) ↔
    ∃ ac conflicts acb conflicts', (a.merge c).outcome = .ok (ac, conflicts) ∧
      (ac.merge b).outcome = .ok (acb, conflicts') := by
  rw [h.exists_merge_merge_iff hb hc, h.swap.exists_merge_merge_iff hc hb]
  constructor
  · rintro ⟨middle, last, hmiddle, hlast, hp⟩
    exact ⟨last, middle, hlast, hmiddle, fun p => (hp p).swap⟩
  · rintro ⟨last, middle, hlast, hmiddle, hp⟩
    exact ⟨middle, last, hmiddle, hlast, fun p => (hp p).swap⟩

end NamesParameters

/-- What comes of `merge` of two tables into a third one, one after the other: each is
`IsMerged`. -/
theorem isMerged_of_outcomes {conflicts conflicts' : List Conflict} {abc : Table}
    (hab : (a.merge b).outcome = .ok (ab, conflicts))
    (habc : (ab.merge c).outcome = .ok (abc, conflicts')) :
    ∃ middle last, (b.switchSource shared).outcome = .ok middle ∧
      (c.switchSource shared).outcome = .ok last ∧ IsMerged shared a middle ab ∧
      IsMerged shared ab last abc ∧ (conflicts = [] ∧ conflicts' = [] ↔
        ∀ p, AgreeAt a middle p ∧ AgreeAt a last p ∧ AgreeAt middle last p) := by
  obtain ⟨middle, hmiddle, -, hmerged, hconflicts⟩ :=
    isMerged_of_outcome h.rooted h.middle_fits h.shared_left hab
  obtain ⟨last, hlast, -, hmerged', hconflicts'⟩ := isMerged_of_outcome hmerged.rooted
    h.right_fits (h.sharedLabels_merged hmiddle hmerged) habc
  obtain ⟨hpair, -, -⟩ :=
    rootedPair_of_switchSource h.rooted h.middle_fits h.shared_left hmiddle
  refine ⟨middle, last, hmiddle, hlast, hmerged, hmerged', ?_⟩
  rw [hconflicts, hconflicts', ← forall_and]
  refine forall_congr' fun p => and_congr_right fun hagree => ?_
  exact (hmerged.places p).agreeAt_iff hpair hmerged.rooted hagree

/-- Where `merge` finds no conflict, the two tables `NamesParameters` after switching: none of them
is empty. -/
theorem namesParameters_of_outcomes {abc : Table} (hab : (a.merge b).outcome = .ok (ab, []))
    (habc : (ab.merge c).outcome = .ok (abc, [])) :
    (∀ middle, (b.switchSource shared).outcome = .ok middle → NamesParameters shared middle) ∧
      ∀ last, (c.switchSource shared).outcome = .ok last → NamesParameters shared last := by
  -- each merge without conflicts is one whose two sides agree
  obtain ⟨middle, hmiddle, hmergeable, hmerged, hagree⟩ :=
    isMerged_of_outcome h.rooted h.middle_fits h.shared_left hab
  have hshared := h.sharedLabels_merged hmiddle hmerged
  obtain ⟨last, hlast, hmergeable', -, hagree'⟩ :=
    isMerged_of_outcome hmerged.rooted h.right_fits hshared habc
  constructor
  · intro middle' hmiddle'
    obtain rfl := Except.ok.inj (hmiddle'.symm.trans hmiddle)
    obtain ⟨hpair, -, -⟩ :=
      rootedPair_of_switchSource h.rooted h.middle_fits h.shared_left hmiddle
    exact hpair.namesParameters hmergeable (hagree.1 rfl)
  · intro last' hlast'
    obtain rfl := Except.ok.inj (hlast'.symm.trans hlast)
    obtain ⟨hpair, -, -⟩ := rootedPair_of_switchSource hmerged.rooted h.right_fits hshared hlast
    exact hpair.namesParameters hmergeable' (hagree'.1 rfl)

end MeetAt

/-- The order in which two tables are merged into a third one does not matter, if they `MeetAt` its
source namespace: each two of the three share only this one. Where `b` and `c` `NamesParameters`, so
that no parameter has an empty name, `merge` succeeds in both orders or in none. If it finds no
conflict in one order, it finds none in the other one, and the two results become the same, but for
the order of entries, when `reorder` puts their namespaces into the same order. The header
properties of `b` and `c` must not differ then, as the property of the one merged first is kept. -/
theorem merge_merge_comm {a b c : Table} (h : MeetAt shared a b c) :
    (NamesParameters shared b → NamesParameters shared c →
      ((∃ ab conflicts abc conflicts', (a.merge b).outcome = .ok (ab, conflicts) ∧
        (ab.merge c).outcome = .ok (abc, conflicts')) ↔
      ∃ ac conflicts acb conflicts', (a.merge c).outcome = .ok (ac, conflicts) ∧
        (ac.merge b).outcome = .ok (acb, conflicts'))) ∧
    ∀ ab abc, (a.merge b).outcome = .ok (ab, []) → (ab.merge c).outcome = .ok (abc, []) →
      (∀ key, Agree (b.properties.get? key) (c.properties.get? key)) →
      ∃ ac acb, (a.merge c).outcome = .ok (ac, []) ∧ (ac.merge b).outcome = .ok (acb, []) ∧
        ∀ labels, Option.Rel (fun t t' => Table.equiv t t' = true)
          (abc.reorder labels).outcome.toOption (acb.reorder labels).outcome.toOption := by
  refine ⟨fun hb hc => h.exists_merge_merge_swap (fun _ => hb.switchSource)
    fun _ => hc.switchSource, fun ab abc hab habc hproperty => ?_⟩
  obtain ⟨hb, hc⟩ := h.namesParameters_of_outcomes hab habc
  obtain ⟨ac, conflicts, acb, conflicts', hac, hacb⟩ :=
    (h.exists_merge_merge_swap hb hc).1 ⟨ab, [], abc, [], hab, habc⟩
  obtain ⟨middle, last, hmiddle, hlast, hmerged, hmerged', hagree⟩ :=
    h.isMerged_of_outcomes hab habc
  obtain ⟨last', middle', hlast', hmiddle', hother, hother', hagree'⟩ :=
    h.swap.isMerged_of_outcomes hac hacb
  obtain rfl := Except.ok.inj (hlast'.symm.trans hlast)
  obtain rfl := Except.ok.inj (hmiddle'.symm.trans hmiddle)
  have hagree := hagree.1 ⟨rfl, rfl⟩
  obtain ⟨rfl, rfl⟩ :=
    hagree'.2 fun p => ⟨(hagree p).2.1, (hagree p).1, (hagree p).2.2.symm⟩
  -- switching keeps the header properties
  obtain ⟨-, -, hmiddleProperties⟩ :=
    rootedPair_of_switchSource h.rooted h.middle_fits h.shared_left hmiddle
  obtain ⟨-, -, hlastProperties⟩ :=
    rootedPair_of_switchSource h.rooted h.right_fits h.shared_outer hlast
  rw [← hmiddleProperties, ← hlastProperties] at hproperty
  exact ⟨ac, acb, hac, hacb, (alike_of_isMerged (h.rootedPair hmiddle hlast) hmerged hmerged' hother
    hother' (fun p => (hagree p).2.2) hproperty).rel_reorder⟩

/-- A table that others are merged into. -/
def outerSample : Table where
  namespaces := { labels := ["intermediary", "official"], valid := by decide }
  properties := .ofList [("generated", none)]
  classes := .ofList [
    ("class_1", {
      names := { slots := [some "class_1", some "a"] }
      methods := .ofList [({ name := "method_1", descriptor := "(Lclass_2;)V" }, {
        descriptor := "(Lclass_2;)V"
        names := { slots := [some "method_1", some "b"] } })] })]

/-- A table that is rooted elsewhere, with a comment and a class of its own. -/
def namedSample : Table where
  namespaces := { labels := ["named", "intermediary"], valid := by decide }
  classes := .ofList [
    ("Main", {
      names := { slots := [some "Main", some "class_1"] }
      comment := some "entry point"
      methods := .ofList [({ name := "run", descriptor := "(LOther;)V" }, {
        descriptor := "(LOther;)V"
        names := { slots := [some "run", some "method_1"] }
        parameters := .ofList [(.ofNat 1, {
          index := .ofNat 1
          names := { slots := [some "other", none] } })] })] }),
    ("Other", { names := { slots := [some "Other", some "class_2"] } })]

/-- A table that is rooted at a third namespace. -/
def seargeSample : Table where
  namespaces := { labels := ["searge", "intermediary"], valid := by decide }
  properties := .ofList [("version", some "2")]
  classes := .ofList [
    ("C_2", { names := { slots := [some "C_2", some "class_2"] }, comment := some "other" })]

/-- The samples can be merged in either order, and give the same table in the end, as
`merge_merge_comm` says. -/
theorem merge_merge_comm_sample : MeetAt "intermediary" outerSample namedSample seargeSample ∧
    NamesParameters "intermediary" namedSample ∧ NamesParameters "intermediary" seargeSample ∧
    ∃ ab abc ac acb, (outerSample.merge namedSample).outcome = .ok (ab, []) ∧
      (ab.merge seargeSample).outcome = .ok (abc, []) ∧
      (outerSample.merge seargeSample).outcome = .ok (ac, []) ∧
      (ac.merge namedSample).outcome = .ok (acb, []) ∧
      abc.namespaces.labels = ["intermediary", "official", "named", "searge"] ∧
      Option.Rel (fun t t' => Table.equiv t t' = true)
        (abc.reorder ["named", "searge"]).outcome.toOption
        (acb.reorder ["named", "searge"]).outcome.toOption := by
  have hmeet : MeetAt "intermediary" outerSample namedSample seargeSample := {
    source := by decide
    left_fits := by decide
    middle_fits := by decide
    right_fits := by decide
    shared_left := by decide
    shared_outer := by decide
    shared_right := by decide }
  have hmerged : (do
      let ab ← (outerSample.merge namedSample).outcome
      let abc ← (ab.1.merge seargeSample).outcome
      return (ab.2, abc.2, abc.1.namespaces.labels)).toOption =
        some ([], [], ["intermediary", "official", "named", "searge"]) := by
    -- keys are put into order by a sort that can be evaluated
    simp only [merge, join, Layout.joinClass, Layout.joinMethod,
      unionKeys_eq_insertionSort isKeyOrder_textLe, unionKeys_eq_insertionSort isKeyOrder_memberKey,
      unionKeys_eq_insertionSort isKeyOrder_indexLe]
    decide +kernel
  obtain ⟨⟨ab, conflicts⟩, hab, hrest⟩ := bind_eq_ok_iff.1 (toOption_eq_some_iff.1 hmerged)
  obtain ⟨⟨abc, conflicts'⟩, habc, hrest⟩ := bind_eq_ok_iff.1 hrest
  obtain ⟨rfl, rfl, hlabels⟩ : conflicts = [] ∧ conflicts' = [] ∧ abc.namespaces.labels = _ := by
    simpa using hrest
  obtain ⟨ac, acb, hac, hacb, hrel⟩ :=
    (merge_merge_comm hmeet).2 ab abc hab habc fun _ => .of_none (.inl rfl)
  exact ⟨hmeet, by decide, by decide, ab, abc, ac, acb, hab, habc, hac, hacb, hlabels, hrel _⟩

/-- A table in which the method of `outerSample` has a parameter, with a `name` in the source
namespace. -/
def parameterSample (namespaces : Namespaces) (name : String) : Table where
  namespaces
  classes := .ofList [
    ("class_1", {
      names := { slots := [some "class_1", none] }
      methods := .ofList [({ name := "method_1", descriptor := "(Lclass_2;)V" }, {
        descriptor := "(Lclass_2;)V"
        names := { slots := [some "method_1", none] }
        parameters := .ofList [(.ofNat 1, {
          index := .ofNat 1
          names := { slots := [some name, none] } })] })] })]

/-- A table in which the parameter has an empty name, which `NamesParameters` excludes. -/
def unnamedSample : Table :=
  parameterSample { labels := _, valid := Namespaces.validLabels_intermediary_named } ""

/-- A table that is rooted alike, in which it has another name. -/
def renamedSample : Table :=
  parameterSample { labels := _, valid := Namespaces.validLabels_intermediary_searge } "param_1"

/-- An empty name is rejected where it is the only one, and hidden by another one that was merged
before: `NamesParameters` is needed for `merge_merge_comm`. -/
theorem merge_merge_unnamed : MeetAt "intermediary" outerSample unnamedSample renamedSample ∧
    (¬∃ ab conflicts, (outerSample.merge unnamedSample).outcome = .ok (ab, conflicts)) ∧
    ∃ ac conflicts acb conflicts', (outerSample.merge renamedSample).outcome = .ok (ac, conflicts) ∧
      (ac.merge unnamedSample).outcome = .ok (acb, conflicts') := by
  have hmeet : MeetAt "intermediary" outerSample unnamedSample renamedSample := {
    source := by decide
    left_fits := by decide
    middle_fits := by decide
    right_fits := by decide
    shared_left := by decide
    shared_outer := by decide
    shared_right := by decide }
  have hfails : (outerSample.merge unnamedSample).outcome.toOption = none := by
    -- keys are put into order by a sort that can be evaluated
    simp only [merge, join, Layout.joinClass, Layout.joinMethod,
      unionKeys_eq_insertionSort isKeyOrder_textLe, unionKeys_eq_insertionSort isKeyOrder_memberKey,
      unionKeys_eq_insertionSort isKeyOrder_indexLe]
    decide +kernel
  have hmerged : (do
      let ac ← (outerSample.merge renamedSample).outcome
      let acb ← (ac.1.merge unnamedSample).outcome
      return acb.1.namespaces.labels).toOption =
        some ["intermediary", "official", "searge", "named"] := by
    simp only [merge, join, Layout.joinClass, Layout.joinMethod,
      unionKeys_eq_insertionSort isKeyOrder_textLe, unionKeys_eq_insertionSort isKeyOrder_memberKey,
      unionKeys_eq_insertionSort isKeyOrder_indexLe]
    decide +kernel
  obtain ⟨⟨ac, conflicts⟩, hac, hrest⟩ := bind_eq_ok_iff.1 (toOption_eq_some_iff.1 hmerged)
  obtain ⟨⟨acb, conflicts'⟩, hacb, -⟩ := bind_eq_ok_iff.1 hrest
  refine ⟨hmeet, ?_, ac, conflicts, acb, conflicts', hac, hacb⟩
  rintro ⟨ab, conflicts, hab⟩
  rw [hab] at hfails
  cases hfails

end Table

end MappingTables
