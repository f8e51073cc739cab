import MappingTables.Names
import MappingTables.Proofs.Sequencing

/-!
# The theory of names

* `requireSource_eq_ok_iff`: when there is a name in the source namespace.
* `overlay`: names that are overlaid with later ones.
* `ofFirst`: names of which only that in the source namespace is known.
-/

namespace MappingTables.Names

/-- `requireSource` gives the name in the source namespace, if it is there. -/
theorem requireSource_eq_ok_iff {names : Names} {name : String} :
    names.requireSource = .ok name ↔ names.source = some name := by
  obtain ⟨slots⟩ := names
  rcases slots with _ | ⟨_ | name', slots⟩
  · exact ⟨nofun, nofun⟩
  · exact ⟨nofun, nofun⟩
  · exact ⟨fun h => congrArg _ (Except.ok.inj h), fun h => congrArg _ (Option.some.inj h)⟩

/-- A name that `get` finds stands in one of the `slots`. -/
theorem mem_slots_of_get {names : Names} {position : Nat} {name : String}
    (h : names.get position = some name) : some name ∈ names.slots := by
  rw [get, Option.join_eq_some_iff] at h
  exact List.mem_of_getElem? h

/-- `ofSlots` makes names of slots in which no name is empty. -/
theorem ofSlots_eq_ok_iff {slots : List (Option String)} {names : Names} :
    ofSlots slots = .ok names ↔ some "" ∉ slots ∧ names = { slots } := by
  unfold ofSlots
  split
  · next h => exact ⟨nofun, fun hnames => absurd h hnames.1⟩
  · next h => exact ⟨fun heq => ⟨h, (Except.ok.inj heq).symm⟩, fun hnames => hnames.2 ▸ rfl⟩

/-- `ofTexts` makes as many slots as there are texts. -/
@[simp]
theorem size_ofTexts (texts : List String) : (ofTexts texts).size = texts.length := by
  rw [ofTexts, size, List.length_map]

/-- A name that `ofTexts` makes was that text, and not empty. -/
theorem mem_slots_ofTexts {texts : List String} {name : String} :
    some name ∈ (ofTexts texts).slots ↔ name ∈ texts ∧ name ≠ "" := by
  rw [ofTexts, List.mem_map]
  constructor
  · rintro ⟨text, htext, h⟩
    split at h
    · cases h
    · next hne =>
      obtain rfl := Option.some.inj h
      exact ⟨htext, hne⟩
  · rintro ⟨hname, hne⟩
    exact ⟨name, hname, if_neg hne⟩

/-- `ofTexts` reads names that are not empty from their texts. -/
theorem ofTexts_getD {names : Names} (h : some "" ∉ names.slots) :
    ofTexts (names.slots.map (·.getD "")) = names := by
  obtain ⟨slots⟩ := names
  rw [ofTexts, Names.mk.injEq, List.map_map]
  conv_rhs => rw [← List.map_id slots]
  refine List.map_congr_left fun slot hslot => ?_
  cases slot with
  | none => rfl
  | some name =>
    have hne : name ≠ "" := by
      rintro rfl
      exact h hslot
    exact if_neg hne

/-- `overlaySlots` gives as many slots as there are below. -/
theorem length_overlaySlots (earlier later : List (Option String)) :
    (overlaySlots earlier later).length = earlier.length := by
  induction earlier, later using overlaySlots.induct with
  | case1 => rfl
  | case2 earlier hne => rw [overlaySlots.eq_2 _ hne]
  | case3 a earlier b later ih => rw [overlaySlots, List.length_cons, ih, List.length_cons]

/-- `overlay` leaves as many slots as there are below. -/
@[simp]
theorem size_overlay (earlier later : Names) : (earlier.overlay later).size = earlier.size :=
  length_overlaySlots earlier.slots later.slots

/-- A slot that `overlaySlots` gives is one of the slots before. -/
theorem mem_overlaySlots {earlier later : List (Option String)} {slot : Option String}
    (h : slot ∈ overlaySlots earlier later) : slot ∈ earlier ∨ slot ∈ later := by
  induction earlier, later using overlaySlots.induct with
  | case1 => cases h
  | case2 earlier hne =>
    rw [overlaySlots.eq_2 _ hne] at h
    exact .inl h
  | case3 a earlier b later ih =>
    rw [overlaySlots] at h
    rcases List.mem_cons.1 h with rfl | h
    · cases b with
      | none => exact .inl List.mem_cons_self
      | some b => exact .inr List.mem_cons_self
    · exact (ih h).imp (List.mem_cons_of_mem a) (List.mem_cons_of_mem b)

/-- The `source` of names after `overlay`: a `later` name counts. -/
theorem source_overlay {earlier later : Names} (h : earlier.slots ≠ []) :
    (earlier.overlay later).source = later.source.or earlier.source := by
  obtain ⟨_ | ⟨a, earlier⟩⟩ := earlier
  · exact absurd rfl h
  · obtain ⟨_ | ⟨b, later⟩⟩ := later
    · cases a <;> rfl
    · rfl

/-- `pick` gives as many slots as there are `positions`. -/
@[simp]
theorem size_pick (names : Names) (positions : List Nat) :
    (names.pick positions).size = positions.length := by
  rw [pick, size, List.length_map]

/-- What `get` finds after `pick` is what stood at the position that was picked. -/
theorem get_pick {names : Names} {positions : List Nat} {i j : Nat}
    (h : positions[i]? = some j) : (names.pick positions).get i = names.get j := by
  rw [get, pick, List.getElem?_map, h]
  rfl

/-- `fill` leaves as many slots. -/
@[simp]
theorem size_fill (target fallback : Nat) (names : Names) :
    (names.fill target fallback).size = names.size := by
  unfold fill
  split
  · exact List.length_set ..
  · rfl

/-- `fill` of a slot other than that of the source namespace leaves the `source` alone. -/
theorem source_fill {target : Nat} (h : target ≠ 0) (fallback : Nat) (names : Names) :
    (names.fill target fallback).source = names.source := by
  unfold fill
  split
  · rw [source, source, get, set, List.getElem?_set_ne h, get]
  · rfl

/-! ## A name in the first namespace -/

@[simp]
theorem size_ofFirst (name : String) (size : Nat) : (ofFirst name size).size = size := by
  simp [ofFirst, Names.size]

/-- `ofFirst` puts the name into the source namespace, if there is one. -/
theorem source_ofFirst (name : String) {size : Nat} (hsize : 0 < size) :
    (ofFirst name size).source = some name := by
  simp [ofFirst, source, get, hsize]

/-- `ofFirst` puts no other name anywhere. -/
theorem eq_of_mem_slots_ofFirst {name other : String} {size : Nat}
    (h : some other ∈ (ofFirst name size).slots) : other = name := by
  rcases List.mem_or_eq_of_mem_set h with h | h
  · exact absurd (List.eq_of_mem_replicate h) (Option.some_ne_none other)
  · exact Option.some.inj h

/-- Of the names that `ofFirst` makes nothing is known but the source name: `isSourceOnly` holds. -/
@[simp]
theorem isSourceOnly_ofFirst (name : String) (size : Nat) :
    (ofFirst name size).isSourceOnly = true := by
  cases size with
  | zero => rfl
  | succ size => simp [isSourceOnly, ofFirst, List.replicate_succ]

/-- Names for which `isSourceOnly` holds are made by `ofFirst`. -/
theorem eq_ofFirst {names : Names} {name : String} (hsource : names.source = some name)
    (honly : names.isSourceOnly = true) : names = ofFirst name names.size := by
  obtain ⟨_ | ⟨slot, slots⟩⟩ := names
  · cases hsource
  · obtain rfl : slot = some name := hsource
    have hslots : slots = List.replicate slots.length none :=
      List.eq_replicate_iff.2 ⟨rfl, by simpa [isSourceOnly] using honly⟩
    rw [ofFirst, size, List.length_cons, List.replicate_succ, List.set_cons_zero, ← hslots]

end MappingTables.Names
