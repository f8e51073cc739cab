import Mathlib.Data.List.Nodup
import MappingTables.Namespaces
import MappingTables.Proofs.Sequencing

/-!
# The theory of namespaces

* `ofLabels_eq_ok_iff`: labels make namespaces exactly if there are such.
* `position_eq_ok_iff`: the position of a namespace is where its label stands.
-/

namespace MappingTables.Namespaces

variable {ns : Namespaces} {labels : List String} {label : String} {i : Nat}

/-- `ofLabels` makes the namespaces that have these `labels`. -/
theorem ofLabels_eq_ok_iff : ofLabels labels = .ok ns ↔ ns.labels = labels := by
  unfold ofLabels
  constructor
  · intro h
    split at h
    · cases h
    · split at h
      · cases h
      · split at h
        · cases h
        · rw [← Except.ok.inj h]
  -- labels that are valid pass the three checks
  · rintro rfl
    obtain ⟨labels, hvalid⟩ := ns
    rw [dif_neg hvalid.1, dif_neg hvalid.2.1]
    split
    · next label hrepeated =>
      have hnone : firstRepeated? [] labels = none :=
        firstRepeated?_eq_none_iff.2 ⟨hvalid.2.2, fun x _ => List.not_mem_nil⟩
      rw [hnone] at hrepeated
      cases hrepeated
    · rfl

/-- `position` finds a namespace where its label stands. -/
theorem position_eq_ok_iff : ns.position label = .ok i ↔ ns.labels[i]? = some label := by
  have hfirst : ns.labels.idxOf? label = some i ↔ ns.labels[i]? = some label := by
    rw [List.idxOf?_eq_some_iff]
    constructor
    · rintro ⟨hi, hlabel, -⟩
      rw [List.getElem?_eq_getElem hi, hlabel]
    · intro hlabel
      obtain ⟨hi, hlabel⟩ := List.getElem?_eq_some_iff.1 hlabel
      -- no label occurs twice, so a position with this label is the first one
      refine ⟨hi, hlabel, fun j hj hsame => absurd ?_ (Nat.ne_of_lt hj)⟩
      have hinj := @List.Nodup.getElem_inj_iff _ _ ns.valid.2.2 j (Nat.lt_trans hj hi) i hi
      exact hinj.1 (hsame.trans hlabel.symm)
  unfold position
  cases h : ns.labels.idxOf? label with
  | none =>
    rw [h] at hfirst
    exact ⟨nofun, fun hlabel => nomatch hfirst.2 hlabel⟩
  | some j =>
    rw [h, Option.some.injEq] at hfirst
    rw [← hfirst]
    exact ⟨Except.ok.inj, fun hj => congrArg _ hj⟩

/-- The labels that most samples have are `ValidLabels`. -/
theorem validLabels_official_named : ValidLabels ["official", "named"] := by
  decide

theorem validLabels_intermediary_named : ValidLabels ["intermediary", "named"] := by
  decide

theorem validLabels_intermediary_searge : ValidLabels ["intermediary", "searge"] := by
  decide

/-- No label stands at two positions among the `labels`. -/
theorem position_unique {j : Nat} (hi : ns.labels[i]? = some label)
    (hj : ns.labels[j]? = some label) : i = j := by
  have hposition := position_eq_ok_iff.2 hi
  rw [position_eq_ok_iff.2 hj] at hposition
  exact (Except.ok.inj hposition).symm

/-- The label of the `source` namespace comes first. -/
theorem getElem?_zero (ns : Namespaces) : ns.labels[0]? = some ns.source := by
  rw [source]
  cases hlabels : ns.labels with
  | nil => exact absurd hlabels ns.valid.1
  | cons label labels => rfl

/-- The `source` namespace stays when others are put behind. -/
theorem source_eq_of_append {ns' : Namespaces} {rest : List String}
    (h : ns'.labels = ns.labels ++ rest) : ns'.source = ns.source := by
  have hzero := ns'.getElem?_zero
  rw [h, List.getElem?_append_left (List.length_pos_of_ne_nil ns.valid.1), ns.getElem?_zero]
    at hzero
  exact (Option.some.inj hzero).symm

/-- `expect` finds namespaces as expected if they have the expected `labels`. -/
theorem expect_eq_ok_iff {u : Unit} : ns.expect labels = .ok u ↔ ns.labels = labels := by
  unfold expect
  split
  · next h => exact ⟨fun _ => h, fun _ => rfl⟩
  · next h => exact ⟨nofun, fun hlabels => absurd hlabels h⟩

end MappingTables.Namespaces
