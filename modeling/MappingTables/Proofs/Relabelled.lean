import MappingTables.Proofs.Switch
import MappingTables.Rename

/-!
# Relabelled tables

Renaming the namespaces of a table changes their labels, all at once, and nothing else. It can be
taken back, and it does not matter whether a table is re-rooted before or after.

* `Relabelled`: the table with other labels.
* `rename_eq_ok_iff`: renaming gives the tables for which it holds.
* `Relabelled.back`: the pairs turned around give the labels from before.
* `Relabelled.reordered_iff`: what reordering does to a table with other labels.
* `rename_isRelabelling`: what follows for the operations.
-/

namespace MappingTables

namespace Namespaces

/-- The `pairs` that take back what a list of pairs does to the labels. -/
def undoing (ns : Namespaces) (pairs : List (String × String)) : List (String × String) :=
  (ns.labels.filter fun label => renamed pairs label ≠ label).map fun label =>
    (renamed pairs label, label)

theorem mem_undoing_iff {ns : Namespaces} {pairs : List (String × String)}
    {pair : String × String} : pair ∈ ns.undoing pairs ↔
      pair.2 ∈ ns.labels ∧ renamed pairs pair.2 ≠ pair.2 ∧ pair.1 = renamed pairs pair.2 := by
  obtain ⟨new, old⟩ := pair
  simp only [undoing, List.mem_map, List.mem_filter, decide_eq_true_eq, Prod.mk.injEq]
  constructor
  · rintro ⟨label, ⟨hlabel, hne⟩, rfl, rfl⟩
    exact ⟨hlabel, hne, rfl⟩
  · rintro ⟨hlabel, hne, rfl⟩
    exact ⟨old, ⟨hlabel, hne⟩, rfl, rfl⟩

/-- `renamed` gives a label the new one of the first pair for it, or leaves it if there is none. -/
theorem renamed_cases (pairs : List (String × String)) (label : String) :
    (label, renamed pairs label) ∈ pairs ∨
      renamed pairs label = label ∧ ∀ pair ∈ pairs, pair.1 ≠ label := by
  rw [renamed]
  cases hlookup : pairs.lookup label with
  | none =>
    refine .inr ⟨rfl, fun pair hpair heq => ?_⟩
    have hne := List.lookup_eq_none_iff.1 hlookup pair hpair
    simp [heq] at hne
  | some new =>
    obtain ⟨before, after, rfl, -⟩ := List.lookup_eq_some_iff.1 hlookup
    exact .inl (by simp)

/-- `rename` succeeds exactly if there are namespaces with the labels that are `renamed`. -/
theorem rename_eq_ok_iff {ns ns' : Namespaces} {pairs : List (String × String)} :
    ns.rename pairs = .ok ns' ↔ ns'.labels = ns.labels.map (renamed pairs) := by
  rw [rename, within_eq_ok_iff, ofLabels_eq_ok_iff]

end Namespaces

namespace Table

/-- A table with its labels changed by `f` and all else as before. -/
structure Relabelled (f : String → String) (t t' : Table) : Prop where
  labels : t'.namespaces.labels = t.namespaces.labels.map f
  properties : t'.properties = t.properties
  classes : t'.classes = t.classes

/-- `rename` gives the table that is `Relabelled`, with the new labels, if there can be one. -/
theorem rename_eq_ok_iff {t t' : Table} {pairs : List (String × String)} :
    t.rename pairs = .ok t' ↔ t.Relabelled (Namespaces.renamed pairs) t' := by
  rw [rename]
  simp only [bind_eq_ok_iff, within_eq_ok_iff, Namespaces.rename_eq_ok_iff, pure_eq_ok_iff]
  constructor
  · rintro ⟨ns', hlabels, rfl⟩
    exact ⟨hlabels, rfl, rfl⟩
  · rintro ⟨hlabels, hproperties, hclasses⟩
    exact ⟨t'.namespaces, hlabels, Table.ext rfl hproperties.symm hclasses.symm⟩

namespace Relabelled

variable {f : String → String} {t t' t₂ : Table} {label : String} {labels : List String}
  {positions : List Nat} {source i : Nat}

theorem size_eq (h : t.Relabelled f t') : t'.namespaces.size = t.namespaces.size := by
  rw [Namespaces.size, Namespaces.size, h.labels, List.length_map]

/-- Different labels of a table that is `Relabelled` stay different, since those of a table always
are. -/
theorem injOn (h : t.Relabelled f t') : ∀ x ∈ t.namespaces.labels, ∀ y ∈ t.namespaces.labels,
    f x = f y → x = y := by
  have hnodup := t'.namespaces.valid.2.2
  rw [h.labels] at hnodup
  exact fun x hx y hy => List.inj_on_of_nodup_map hnodup hx hy

/-- A table that is `Relabelled` by `f` is the one from before again if `g` gives the labels back to
their namespaces. -/
theorem back {g : String → String} (h : t.Relabelled f t')
    (hback : ∀ x ∈ t.namespaces.labels, g (f x) = x) : t'.Relabelled g t := by
  refine ⟨?_, h.properties.symm, h.classes.symm⟩
  rw [h.labels, List.map_map]
  conv_lhs => rw [← List.map_id t.namespaces.labels]
  exact List.map_congr_left fun x hx => (hback x hx).symm

/-- A namespace of a table that is `Relabelled` has its new label where it had the old one. -/
theorem getElem?_labels (h : t.Relabelled f t') (hlabel : label ∈ t.namespaces.labels) :
    t'.namespaces.labels[i]? = some (f label) ↔ t.namespaces.labels[i]? = some label := by
  rw [h.labels, List.getElem?_map, Option.map_eq_some_iff]
  constructor
  · rintro ⟨other, hother, heq⟩
    rwa [h.injOn label hlabel other (List.mem_of_getElem? hother) heq.symm]
  · exact fun hi => ⟨label, hi, rfl⟩

/-- `positions` finds new labels where the old ones were. -/
theorem positions_eq (h : t.Relabelled f t') (hlabels : labels ⊆ t.namespaces.labels) :
    t'.namespaces.positions (labels.map f) = .ok positions ↔
      t.namespaces.positions labels = .ok positions := by
  rw [Namespaces.positions_eq_ok_iff, Namespaces.positions_eq_ok_iff, List.forall₂_map_left_iff]
  exact forall₂_iff_of_forall₂ (R := Eq) (List.forall₂_refl labels) fun label hlabel label' i heq =>
    heq ▸ h.getElem?_labels (hlabels hlabel)

/-- A table that is `Relabelled` is `Reordered` as the one with the old labels, and then has the
other ones. -/
theorem reordered_iff (h : t.Relabelled f t')
    (hpositions : ∀ i ∈ positions, i < t.namespaces.size) :
    t'.Reordered source positions t₂ ↔
      ∃ t₁, t.Reordered source positions t₁ ∧ t₁.Relabelled f t₂ := by
  have hrenaming : t'.classRenaming 0 source = t.classRenaming 0 source := by
    rw [classRenaming, classRenaming, h.classes]
  have hold : ∀ i ∈ positions, t.namespaces.labels[i]? = some (t.namespaces.label i) := fun i hi =>
    Namespaces.getElem?_labels (hpositions i hi)
  have hlabels : positions.map t'.namespaces.label = (positions.map t.namespaces.label).map f := by
    rw [List.map_map]
    refine List.map_congr_left fun i hi => ?_
    have hnew := (h.getElem?_labels (List.mem_of_getElem? (hold i hi))).2 (hold i hi)
    rw [Namespaces.label, List.getD_eq_getElem?_getD, hnew]
    rfl
  constructor
  · rintro ⟨hnamespaces, hproperties, hclasses⟩
    have hmapped := hnamespaces.trans hlabels
    -- the labels that were asked for are fit for a table, because the new ones in their place are
    have hvalid : ValidLabels (positions.map t.namespaces.label) := by
      have hvalid := t₂.namespaces.valid
      rw [hmapped] at hvalid
      refine ⟨fun hnil => hvalid.1 (by rw [hnil, List.map_nil]), fun hempty => ?_,
        hvalid.2.2.of_map⟩
      obtain ⟨i, hi, heq⟩ := List.mem_map.1 hempty
      exact t.namespaces.valid.2.1 (heq ▸ List.mem_of_getElem? (hold i hi))
    rw [hrenaming, h.classes] at hclasses
    exact ⟨{ t₂ with namespaces := ⟨_, hvalid⟩ }, ⟨rfl, hproperties.trans h.properties, hclasses⟩,
      ⟨hmapped, rfl, rfl⟩⟩
  · rintro ⟨t₁, ⟨hnamespaces, hproperties, hclasses⟩, h₁⟩
    refine ⟨?_, ?_, ?_⟩
    · rw [h₁.labels, hnamespaces, hlabels]
    · rw [h₁.properties, hproperties, h.properties]
    · rw [h₁.classes, hrenaming, h.classes]
      exact hclasses

/-- `reorder` can be asked for the new labels exactly if it can be for the old ones, and the table
is the same then but for being `Relabelled`. -/
theorem reorder_eq_ok_iff (h : t.Relabelled f t') (hlabels : labels ⊆ t.namespaces.labels) :
    (t'.reorder (labels.map f)).outcome = .ok t₂ ↔
      ∃ t₁, (t.reorder labels).outcome = .ok t₁ ∧ t₁.Relabelled f t₂ := by
  -- labels that are known stay different when they are renamed
  have hnodup : (labels.map f).Nodup ↔ labels.Nodup :=
    ⟨List.Nodup.of_map f, List.Nodup.map_on fun x hx y hy =>
      h.injOn x (hlabels hx) y (hlabels hy)⟩
  have hpositions : ∀ {positions}, t.namespaces.positions labels = .ok positions →
      ∀ i ∈ positions, i < t.namespaces.size := by
    intro positions hpositions i hi
    obtain ⟨label, -, hlabel⟩ :=
      exists_of_forall₂_of_mem (Namespaces.positions_eq_ok_iff.1 hpositions) hi
    exact (List.getElem?_eq_some_iff.1 hlabel).1
  simp only [outcome_reorder_eq_ok_iff, hnodup, h.positions_eq hlabels]
  constructor
  · rintro ⟨hlabels, source, rest, hrequest, hreordered⟩
    obtain ⟨t₁, hreordered, h₁⟩ := (h.reordered_iff (hpositions hrequest)).1 hreordered
    exact ⟨t₁, ⟨hlabels, source, rest, hrequest, hreordered⟩, h₁⟩
  · rintro ⟨t₁, ⟨hlabels, source, rest, hrequest, hreordered⟩, h₁⟩
    exact ⟨hlabels, source, rest, hrequest,
      (h.reordered_iff (hpositions hrequest)).2 ⟨t₁, hreordered, h₁⟩⟩

/-- The same holds of `switchSource` to a namespace. -/
theorem switchSource_eq_ok_iff (h : t.Relabelled f t') (hlabel : label ∈ t.namespaces.labels) :
    (t'.switchSource (f label)).outcome = .ok t₂ ↔
      ∃ t₁, (t.switchSource label).outcome = .ok t₁ ∧ t₁.Relabelled f t₂ := by
  simp only [outcome_switchSource_eq_ok_iff, h.getElem?_labels hlabel, h.size_eq]
  have hpositions : ∀ {position : Nat}, t.namespaces.labels[position]? = some label →
      ∀ i ∈ exchanged t.namespaces.size position, i < t.namespaces.size := by
    intro position hposition i hi
    obtain ⟨j, hj, rfl⟩ := List.mem_map.1 hi
    exact exchange_lt (List.getElem?_eq_some_iff.1 hposition).1 (List.mem_range.1 hj)
  constructor
  · rintro ⟨position, hposition, ⟨hzero, rfl⟩ | ⟨hne, hreordered⟩⟩
    · exact ⟨t, ⟨position, hposition, .inl ⟨hzero, rfl⟩⟩, h⟩
    · obtain ⟨t₁, hreordered, h₁⟩ := (h.reordered_iff (hpositions hposition)).1 hreordered
      exact ⟨t₁, ⟨position, hposition, .inr ⟨hne, hreordered⟩⟩, h₁⟩
  · rintro ⟨t₁, ⟨position, hposition, ⟨hzero, rfl⟩ | ⟨hne, hreordered⟩⟩, h₁⟩
    -- a switch to the current source is no change on either side
    · refine ⟨position, hposition, .inl ⟨hzero, ?_⟩⟩
      refine Table.ext (Namespaces.ext ?_) ?_ ?_
      · rw [h₁.labels, h.labels]
      · rw [h₁.properties, h.properties]
      · rw [h₁.classes, h.classes]
    · exact ⟨position, hposition, .inr ⟨hne,
        (h.reordered_iff (hpositions hposition)).2 ⟨t₁, hreordered, h₁⟩⟩⟩

end Relabelled

/-- What comes of a step and `rename` after it is what the step gave, `Relabelled`. -/
theorem bind_rename_eq_ok_iff {x : Except Failure Table} {pairs : List (String × String)}
    {t₂ : Table} : (x >>= fun t => t.rename pairs) = .ok t₂ ↔
      ∃ t₁, x = .ok t₁ ∧ t₁.Relabelled (Namespaces.renamed pairs) t₂ := by
  simp only [bind_eq_ok_iff, rename_eq_ok_iff]

/-- `rename` gives a table that is only `Relabelled`. It is taken back by renaming the labels that
were changed to what they were, with the pairs for that in any order, also where labels changed
places. And a table can be re-rooted, with `reorder` or `switchSource`, by the new labels as well
after it as before, by the old ones: both fail or both give the same table. -/
theorem rename_isRelabelling {t t' : Table} {pairs : List (String × String)}
    (h : t.rename pairs = .ok t') :
    (∀ back, (∀ pair, pair ∈ back ↔ pair ∈ t.namespaces.undoing pairs) → t'.rename back = .ok t) ∧
    (∀ labels ⊆ t.namespaces.labels,
      (t'.reorder (labels.map (Namespaces.renamed pairs))).outcome.toOption =
        ((t.reorder labels).outcome >>= fun t₁ => t₁.rename pairs).toOption) ∧
    ∀ label ∈ t.namespaces.labels,
      (t'.switchSource (Namespaces.renamed pairs label)).outcome.toOption =
        ((t.switchSource label).outcome >>= fun t₁ => t₁.rename pairs).toOption := by
  have h := rename_eq_ok_iff.1 h
  refine ⟨fun back hback => ?_, fun labels hlabels => toOption_congr fun t₂ => ?_,
    fun label hlabel => toOption_congr fun t₂ => ?_⟩
  · refine rename_eq_ok_iff.2 (h.back fun label hlabel => ?_)
    simp only [Namespaces.mem_undoing_iff] at hback
    obtain hpair | ⟨hsame, hnone⟩ :=
      Namespaces.renamed_cases back (Namespaces.renamed pairs label)
    · -- the pair that counts is that of a label with the same new label, of which there is only one
      obtain ⟨hother, -, heq⟩ := (hback _).1 hpair
      exact (h.injOn label hlabel _ hother heq).symm
    · -- without a pair the label was not changed in the first place
      rw [hsame]
      by_contra hne
      exact hnone (Namespaces.renamed pairs label, label) ((hback _).2 ⟨hlabel, hne, rfl⟩) rfl
  · rw [h.reorder_eq_ok_iff hlabels, bind_rename_eq_ok_iff]
  · rw [h.switchSource_eq_ok_iff hlabel, bind_rename_eq_ok_iff]

/-- A table with three namespaces, in which a class has no name in one of them. -/
def rotatedTable : Table where
  namespaces := { labels := ["official", "hashed", "named"], valid := by decide }
  properties := .ofList [("escaped-names", none)]
  classes := .ofList [
    ("a", {
      names := { slots := [some "a", some "C_1", some "Main"] }
      methods := .ofList [({ name := "y", descriptor := "(La;)Lb;" }, {
        descriptor := "(La;)Lb;"
        names := { slots := [some "y", some "method_1", some "run"] } })] }),
    ("b", { names := { slots := [some "b", none, some "Helper"] } })]

/-- Pairs by which each label goes to the next namespace. The last two have nothing to say. -/
def rotation : List (String × String) :=
  [("named", "official"), ("official", "hashed"), ("hashed", "named"), ("named", "other"),
    ("mojmap", "official")]

/-- The labels of the `rotatedTable` go round and back, and it can be asked for by the labels that
it has in between. -/
theorem rename_isRelabelling_rotation :
    ∃ t' reordered switched, rotatedTable.rename rotation = .ok t' ∧
      t'.namespaces.labels = ["hashed", "named", "official"] ∧
      t'.rename [("official", "named"), ("hashed", "official"), ("named", "hashed")] =
        .ok rotatedTable ∧
      ((rotatedTable.reorder ["named", "official"]).outcome >>= fun t => t.rename rotation) =
        .ok reordered ∧
      (t'.reorder ["official", "hashed"]).outcome = .ok reordered ∧
      ((rotatedTable.switchSource "hashed").outcome >>= fun t => t.rename rotation) = .ok switched ∧
      (t'.switchSource "named").outcome = .ok switched := by
  have hrename : (rotatedTable.rename rotation).toOption.any
      (fun t => t.namespaces.labels = ["hashed", "named", "official"]) = true := by decide +kernel
  obtain ⟨t', ht', hlabels⟩ := (Option.any_eq_true ..).1 hrename
  have ht' := toOption_eq_some_iff.1 ht'
  obtain ⟨hback, hreorder, hswitch⟩ := rename_isRelabelling ht'
  have hreorder := hreorder ["named", "official"] (by decide)
  have hswitch := hswitch "hashed" (by decide)
  obtain ⟨reordered, hreordered⟩ := Option.isSome_iff_exists.1
    (show ((rotatedTable.reorder ["named", "official"]).outcome >>= fun t =>
      t.rename rotation).toOption.isSome = true by decide +kernel)
  obtain ⟨switched, hswitched⟩ := Option.isSome_iff_exists.1
    (show ((rotatedTable.switchSource "hashed").outcome >>= fun t =>
      t.rename rotation).toOption.isSome = true by decide +kernel)
  refine ⟨t', reordered, switched, ht', of_decide_eq_true hlabels, hback _ fun pair => ?_,
    toOption_eq_some_iff.1 hreordered, toOption_eq_some_iff.1 (hreorder.trans hreordered),
    toOption_eq_some_iff.1 hswitched, toOption_eq_some_iff.1 (hswitch.trans hswitched)⟩
  have hundoing : rotatedTable.namespaces.undoing rotation =
      [("hashed", "official"), ("named", "hashed"), ("official", "named")] := by decide +kernel
  rw [hundoing]
  simp only [List.mem_cons, List.not_mem_nil, or_false]
  grind

end Table

end MappingTables
