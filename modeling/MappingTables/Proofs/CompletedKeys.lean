import MappingTables.Proofs.NameRules
import MappingTables.Proofs.Places

/-!
# Keys after completing a namespace

Completing a namespace fills in names and leaves all keys alone. If it is the source namespace that
is completed, a name can come to stand next to a key that it does not agree with: an entry without a
name there is keyed by a name from some other namespace, which need not be the one that names are
taken from.

* `Table.nameAt_source_of_complete`: the source names afterwards.
* `Table.complete_isWellKeyed_iff`: when a table stays well keyed.
* `Table.complete_fallbackKey`: a table that does not.
-/

namespace MappingTables

/-- `fill` in the source namespace puts in the fallback if there is no `source` name. -/
theorem Names.source_fill_zero (fallback : Nat) (names : Names) :
    (names.fill 0 fallback).source = names.source.or (names.get fallback) := by
  obtain ⟨_ | ⟨slot, slots⟩⟩ := names
  · -- without slots nothing can be filled in
    simp [fill, isFillable, source, get]
  · rw [fill, isFillable]
    cases slot with
    | some name => simp [source, get]
    | none => cases hname : get ⟨none :: slots⟩ fallback <;> simp [source, get, set]

namespace Table

variable {t t' : Table} {target fallback : String} {count : Nat}

/-- The source names after `complete`: those there were, and, if it is the source namespace that was
completed, the names in the other namespace where there were none. -/
theorem nameAt_source_of_complete (h : (t.complete target fallback).outcome = .ok (t', count))
    (p : Place) :
    t'.nameAt t'.namespaces.source p =
      if target = t.namespaces.source then (t.nameAt target p).or (t.nameAt fallback p)
      else t.nameAt t.namespaces.source p := by
  obtain ⟨i, j, hi, hj, -, rfl⟩ := outcome_complete_eq_ok h
  have hzero := t.namespaces.getElem?_zero
  -- all of these are names at positions
  have hsource := Namespaces.nameIn_eq_get hzero
  have htarget := Namespaces.nameIn_eq_get hi
  have hfallback := Namespaces.nameIn_eq_get hj
  change ((t.mapNames (Names.fill i j)).namesAt p).bind
    (t.namespaces.nameIn t.namespaces.source) = _
  rw [namesAt_mapNames, nameAt, nameAt, nameAt]
  cases t.namesAt p with
  | none => simp
  | some names =>
    rw [Option.map_some, Option.bind_some, Option.bind_some, Option.bind_some, Option.bind_some,
      hsource, hsource, htarget, hfallback]
    split
    · next heq =>
      obtain rfl : i = 0 := Namespaces.position_unique hi (heq ▸ hzero)
      exact names.source_fill_zero j
    · next hne =>
      have hne' : i ≠ 0 := by
        rintro rfl
        exact hne (Option.some.inj (hi.symm.trans hzero))
      exact names.source_fill hne' j

/-- `complete` succeeds for two namespaces of a table. -/
theorem exists_complete (htarget : target ∈ t.namespaces.labels)
    (hfallback : fallback ∈ t.namespaces.labels) (hne : target ≠ fallback) :
    ∃ t' count, (t.complete target fallback).outcome = .ok (t', count) := by
  obtain ⟨i, hi⟩ := List.mem_iff_getElem?.1 htarget
  obtain ⟨j, hj⟩ := List.mem_iff_getElem?.1 hfallback
  have hij : i ≠ j := by
    rintro rfl
    exact hne (Option.some.inj (hi.symm.trans hj))
  exact ⟨_, _, outcome_complete_eq_ok_iff.2 ⟨i, j, hi, hj, hij, rfl, rfl⟩⟩

/-- A table that `IsWellKeyed` stays so under `complete` exactly if the `target` is not the source
namespace, or the names that are filled in are those that their entries are keyed by. -/
theorem complete_isWellKeyed_iff (ht : t.IsWellKeyed) (htarget : target ∈ t.namespaces.labels)
    (hfallback : fallback ∈ t.namespaces.labels) (hne : target ≠ fallback) :
    ∃ t' count, (t.complete target fallback).outcome = .ok (t', count) ∧
      (t'.IsWellKeyed ↔ (target = t.namespaces.source → ∀ p : Place, ∀ key ∈ p.keyName?,
        t.nameAt target p = none → ∀ name ∈ t.nameAt fallback p, name = key)) := by
  obtain ⟨t', count, h⟩ := exists_complete htarget hfallback hne
  refine ⟨t', count, h, ?_⟩
  unfold IsWellKeyed
  simp only [nameAt_source_of_complete h]
  by_cases hsource : target = t.namespaces.source
  · subst hsource
    simp only [if_true, forall_const]
    -- at each place there is a name of before, which agrees, or one that is filled in
    refine forall_congr' fun p => forall₂_congr fun key hkey => ?_
    cases hname : t.nameAt t.namespaces.source p with
    | none => simp
    | some name => simpa using ht p key hkey name hname
  · simp only [hsource, false_imp_iff, iff_true]
    exact ht

/-- A table with a class and a method that have no name in the third namespace. -/
def fallbackNames : Table where
  namespaces := { labels := ["official", "intermediary", "named"], valid := by decide }
  classes := .ofList [
    ("a", {
      names := { slots := [some "a", some "class_1", none] }
      methods := .ofList [({ name := "x", descriptor := "(La;)V" }, {
        descriptor := "(La;)V"
        names := { slots := [some "x", none, none] } })] }),
    ("b", { names := { slots := [some "b", some "class_2", some "Main"] } })]

/-- The sample after it is switched to its third namespace. The class `a` and its method have no
name there, and are still keyed by their names in what was the first namespace. -/
theorem exists_switched_fallbackNames : ∃ t : Table,
    (fallbackNames.switchSource "named").outcome = .ok t ∧
      t.namespaces.labels = ["named", "intermediary", "official"] ∧ t.IsAligned ∧
      t.nameAt "named" (.classEntry "a") = none ∧
      t.nameAt "intermediary" (.classEntry "a") = some "class_1" ∧
      ∀ p ∈ t.places, ∀ key ∈ p.keyName?, t.nameAt "named" p = none →
        ∀ name ∈ t.nameAt "official" p, name = key := by
  have hany : (fallbackNames.switchSource "named").outcome.toOption.any (fun t =>
      t.namespaces.labels = ["named", "intermediary", "official"] ∧ t.IsAligned ∧
      t.nameAt "named" (.classEntry "a") = none ∧
      t.nameAt "intermediary" (.classEntry "a") = some "class_1" ∧
      ∀ p ∈ t.places, ∀ key ∈ p.keyName?, t.nameAt "named" p = none →
        ∀ name ∈ t.nameAt "official" p, name = key) = true := by
    decide +kernel
  obtain ⟨t, h, ht⟩ := (Option.any_eq_true ..).1 hany
  exact ⟨t, toOption_eq_some_iff.1 h, of_decide_eq_true ht⟩

/-- `fallbackNames` after `switchSource` stays well keyed when its source namespace is completed
with the names that entries are keyed by. -/
theorem complete_isWellKeyed_iff_sample : ∃ t t' count,
    (fallbackNames.switchSource "named").outcome = .ok t ∧ t.IsWellKeyed ∧
      "named" ∈ t.namespaces.labels ∧ "official" ∈ t.namespaces.labels ∧
      "named" = t.namespaces.source ∧
      (t.complete "named" "official").outcome = .ok (t', count) ∧ t'.IsWellKeyed := by
  obtain ⟨t, h, hlabels, haligned, -, -, hkeys⟩ := exists_switched_fallbackNames
  have htarget : "named" ∈ t.namespaces.labels := hlabels ▸ by decide
  have hfallback : "official" ∈ t.namespaces.labels := hlabels ▸ by decide
  have hsource : "named" = t.namespaces.source := by
    rw [Namespaces.source, hlabels]
    rfl
  obtain ⟨t', count, hcomplete, hiff⟩ :=
    complete_isWellKeyed_iff haligned.isWellKeyed htarget hfallback (by decide)
  refine ⟨t, t', count, h, haligned.isWellKeyed, htarget, hfallback, hsource, hcomplete,
    hiff.2 fun _ p key hkey hnone name hname => ?_⟩
  -- a place with a name is one of those in the table
  have hp : p ∈ t.places := by
    obtain ⟨names, hnames, -⟩ := Option.bind_eq_some_iff.1 hname
    exact mem_places_iff.2 (Option.isSome_iff_exists.2 ⟨names, hnames⟩)
  exact hkeys p hp key hkey hnone name hname

/-- The switched sample does not stay well keyed when its source namespace is completed with other
names: the class gets the name `class_1` under the key `a`. -/
theorem complete_fallbackKey : ∃ t t' count,
    (fallbackNames.switchSource "named").outcome = .ok t ∧ t.IsWellKeyed ∧
      "named" ∈ t.namespaces.labels ∧ "intermediary" ∈ t.namespaces.labels ∧
      (t.complete "named" "intermediary").outcome = .ok (t', count) ∧
      t'.nameAt t'.namespaces.source (.classEntry "a") = some "class_1" ∧ ¬t'.IsWellKeyed := by
  obtain ⟨t, h, hlabels, haligned, hnone, hname, -⟩ := exists_switched_fallbackNames
  have htarget : "named" ∈ t.namespaces.labels := hlabels ▸ by decide
  have hfallback : "intermediary" ∈ t.namespaces.labels := hlabels ▸ by decide
  have hsource : "named" = t.namespaces.source := by
    rw [Namespaces.source, hlabels]
    rfl
  obtain ⟨t', count, hcomplete⟩ := exists_complete htarget hfallback (by decide)
  have hfilled : t'.nameAt t'.namespaces.source (.classEntry "a") = some "class_1" := by
    rw [nameAt_source_of_complete hcomplete, if_pos hsource, hnone, hname, Option.none_or]
  refine ⟨t, t', count, h, haligned.isWellKeyed, htarget, hfallback, hcomplete, hfilled,
    fun hkeyed => ?_⟩
  exact absurd (hkeyed _ "a" rfl _ hfilled) (by decide)

end Table

end MappingTables
