import MappingTables.Proofs.Format.Dialect
import MappingTables.Proofs.NameRules
import MappingTables.Proofs.Nested.Storable
import MappingTables.Proofs.Plain.Reader

/-!
# The table of an artifact

The table that is used for an artifact is made from two files, and is then stored as a third one.

* `Artifact.mergedTable`: the table that is made from the two files.
* `Artifact.legible_of_mergedTable`: its names, labels and header properties can stand in lines.
-/

namespace MappingTables

namespace Format

open Text Nested

/-- Whether the names and the header properties of a table can stand in lines, as `nameRules` ask of
them. -/
structure Tidy (t : Table) : Prop where
  names : t.Obeys (nameRules fun name =>
    t.properties.contains escapedNames = false → Avoids ['\t', '\n'] name)
  keys : ∀ e ∈ t.properties.entries, Avoids ['\t', '\n'] e.1
  values : ∀ e ∈ t.properties.entries, ∀ value ∈ e.2, Avoids ['\t', '\n'] value ∧ e.1 ≠ ""

/-- Every table that is read is `Tidy`, whatever the dialect. -/
theorem tidy_of_read {bytes : ByteArray} {t : Table} (h : read bytes = .ok t) : Tidy t := by
  obtain ⟨dialect, -, h⟩ := read_eq_ok_iff.1 h
  cases dialect with
  | plain =>
    obtain ⟨hnames, hproperties⟩ := Plain.obeys_of_read h
    refine ⟨hnames.mono_names fun name havoids _ => havoids, ?_, ?_⟩
    · rw [hproperties]
      nofun
    · rw [hproperties]
      nofun
  | nested =>
    have hfits := fits_of_read_of_any h
    refine ⟨hfits.entries.mono ?_, hfits.keys, hfits.values⟩
    exact {
      keyed := fun _ _ hnames name hname => (hnames.2.2 name hname).2
      descriptor := fun _ _ => trivial
      parameter := fun _ hnames name hname => (hnames.2 name hname).2 }

/-- `switchSource` leaves a table `Tidy`. -/
theorem Tidy.switched {t t' : Table} {position : Nat} (ht : Tidy t) (h : t.Switched position t') :
    Tidy t' := by
  have hnames := h.obeys_nameRules ht.names
  rw [← h.properties_eq] at hnames
  exact ⟨hnames, h.properties_eq ▸ ht.keys, h.properties_eq ▸ ht.values⟩

/-- `merge` leaves tables `Tidy`, and no name is empty then. -/
theorem Tidy.merged {a b merged : Table} {conflicts : List Conflict} (ha : Tidy a) (hb : Tidy b)
    (h : (a.merge b).outcome = .ok (merged, conflicts)) :
    Tidy merged ∧ merged.IsAligned ∧ merged.Obeys (nameRules (· ≠ "")) := by
  have hescaped : (Table.joinProperties a b).contains escapedNames = false →
      a.properties.contains escapedNames = false ∧ b.properties.contains escapedNames = false := by
    rw [Table.contains_joinProperties, Bool.or_eq_false_iff]
    exact id
  -- names are not escaped in the merged table only if they are in neither of the two
  obtain ⟨hnames, haligned, hproperties⟩ := Table.obeys_of_merge h
    (ha.names.mono_names fun name havoids he => havoids (hescaped he).1)
    (hb.names.mono_names fun name havoids he => havoids (hescaped he).2)
  rw [← hproperties] at hnames
  refine ⟨⟨hnames.mono_names fun name => And.right, fun e he => ?_, fun e he => ?_⟩, haligned,
    hnames.mono_names fun name => And.left⟩
  · rw [hproperties] at he
    exact (Table.mem_joinProperties he).elim (ha.keys e) (hb.keys e)
  · rw [hproperties] at he
    exact (Table.mem_joinProperties he).elim (ha.values e) (hb.values e)

end Format

namespace Artifact

open Format Text Nested

/-- The namespaces of the table that is used for an artifact. -/
def usedLabels : List String :=
  ["intermediary", "official", "named"]

/-- The table that is used for an artifact, from the mappings in its jar and a file with the
mappings from `official` to `intermediary`. -/
def mergedTable (base intermediary : ByteArray) : Except Failure Table := do
  let baseTable ← Format.read base
  let t ← Format.read intermediary
  let switched ← (t.switchSource "intermediary").outcome
  let (merged, _) ← (switched.merge baseTable).outcome
  merged.namespaces.expect usedLabels
  let (completed, _) ← (merged.complete "named" "intermediary").outcome
  return completed

/-- `mergedTable` is made in steps, each of which has to succeed. -/
theorem mergedTable_eq_ok_iff {base intermediary : ByteArray} {t : Table} :
    mergedTable base intermediary = .ok t ↔ ∃ baseTable read switched merged conflicts count,
      Format.read base = .ok baseTable ∧ Format.read intermediary = .ok read ∧
      (read.switchSource "intermediary").outcome = .ok switched ∧
      (switched.merge baseTable).outcome = .ok (merged, conflicts) ∧
      merged.namespaces.expect usedLabels = .ok () ∧
      (merged.complete "named" "intermediary").outcome = .ok (t, count) := by
  rw [mergedTable]
  simp only [bind_eq_ok_iff, pure_eq_ok_iff]
  constructor
  · rintro ⟨baseTable, hbase, read, hread, switched, hswitched, ⟨merged, conflicts⟩, hmerged, u,
      hexpected, ⟨completed, count⟩, hcompleted, rfl⟩
    exact ⟨baseTable, read, switched, merged, conflicts, count, hbase, hread, hswitched, hmerged,
      hexpected, hcompleted⟩
  · rintro ⟨baseTable, read, switched, merged, conflicts, count, hbase, hread, hswitched, hmerged,
      hexpected, hcompleted⟩
    exact ⟨baseTable, hbase, read, hread, switched, hswitched, (merged, conflicts), hmerged, (),
      hexpected, (t, count), hcompleted, rfl⟩

/-- The table that is used has the namespaces `intermediary`, `official` and `named`, and whatever
the two files hold, all in it can stand in lines but for the descriptors. -/
theorem legible_of_mergedTable {base intermediary : ByteArray} {t : Table}
    (h : mergedTable base intermediary = .ok t) : Legible t := by
  obtain ⟨baseTable, read, switched, merged, conflicts, count, hbase, hread, hswitched, hmerged,
    hexpected, hcompleted⟩ := mergedTable_eq_ok_iff.1 h
  have hlabels : merged.namespaces.labels = usedLabels := Namespaces.expect_eq_ok_iff.1 hexpected
  obtain ⟨_, -, hswitched⟩ := Table.switched_of_outcome hswitched
  obtain ⟨htidy, haligned, hnonempty⟩ :=
    ((tidy_of_read hread).switched hswitched).merged (tidy_of_read hbase) hmerged
  obtain ⟨target, fallback, htarget, -, -, rfl⟩ := Table.outcome_complete_eq_ok hcompleted
  -- what is filled in is `named`, so source names stay
  have htarget : target ≠ 0 := by
    rintro rfl
    rw [hlabels] at htarget
    exact absurd htarget (by decide)
  have hfit : ∀ names : Names, names.All (· ≠ "") →
      names.All (fun name =>
        merged.properties.contains escapedNames = false → Avoids ['\t', '\n'] name) →
      FitNames ['\t', '\n'] (merged.properties.contains escapedNames)
        (names.fill target fallback) := fun names hne havoids name hname =>
    ⟨(hne.fill target fallback) name hname, (havoids.fill target fallback) name hname⟩
  refine ⟨?_, ?_, ?_, htidy.keys, htidy.values⟩
  · refine Table.Obeys.mapNames ?_ (fun _ _ => trivial) ?_
      (haligned.and (hnonempty.and htidy.names))
    · rintro key names ⟨⟨hsize, hsource⟩, hne, havoids⟩
      refine ⟨(names.size_fill target fallback).trans hsize, ?_, hfit names hne havoids⟩
      rw [Names.source_fill htarget]
      exact hsource
    · rintro names ⟨hsize, hne, havoids⟩
      exact ⟨(names.size_fill target fallback).trans hsize, hfit names hne havoids⟩
  · change 2 ≤ merged.namespaces.labels.length
    rw [hlabels]
    decide
  · change ∀ label ∈ merged.namespaces.labels, Avoids ['\t', '\n', '\r'] label
    rw [hlabels]
    decide

end Artifact

end MappingTables
