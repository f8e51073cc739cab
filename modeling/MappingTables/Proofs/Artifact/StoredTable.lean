import MappingTables.Proofs.Artifact.Provider
import MappingTables.Proofs.Identity.TableKey

/-!
# Reading the stored table of an artifact

The table that is stored when an artifact is set up is read again by those who ask for it.

* `mappings_setUp_iff`: the table that is read is the one that was made, exactly if that table
  survives being written and read.
* `mappings_setUp_unnamed`: an artifact whose table does not.
-/

namespace MappingTables

namespace Artifact.Provider

open Format Step

variable {config : Config} {p : Provider} {host host' : Host} {base : ByteArray}
  {content : FileContent} {propose : FieldNameProposer}

/-- `Provider.mappings` gives the table in the file of the artifact, as long as none is kept for
it. -/
theorem exists_mappings_iff {t : Table} {intermediary : String}
    (h : Stores p.mappingsPath t (intermediaryKey intermediary content) host) (P : Table → Prop) :
    (∃ shared host', p.mappings.runFrom host = (.ok shared, host') ∧ P shared.table) ↔
      ∃ t', Format.read (Nested.write t).toUTF8 = .ok t' ∧ P t' := by
  -- the table that it was made with is kept under another key
  have hne : (p.keyOf (.ofBytes p.mappingsPath none (Nested.write t).toUTF8)).text ≠
      intermediaryKey intermediary content := Source.text_forGame_ne _ _ _ _
  have hmappings : p.mappings.runFrom host =
      (Action.getOrCreate (p.keyOf (.ofBytes p.mappingsPath none (Nested.write t).toUTF8)).text
        (MappingsFile.read p.mappingsPath)).runFrom host := by
    rw [mappings, runFrom_bind, Source.runFrom_ofFile h.read]
    rfl
  rw [hmappings]
  -- the key is of no further concern
  generalize (p.keyOf (.ofBytes p.mappingsPath none (Nested.write t).toUTF8)).text = key at hne ⊢
  have hread : ({ host with tables := host.tables.reserve key } : Host).files.read p.mappingsPath =
      .ok (.bytes (Nested.write t).toUTF8) := h.read
  simp only [Action.runFrom_getOrCreate_of_new (h.tables key hne),
    MappingsFile.runFrom_read_eq_ok_iff hread]
  constructor
  · rintro ⟨shared, host', ⟨t', host'', ⟨ht', rfl⟩, rfl, rfl⟩, hP⟩
    exact ⟨t', ht', hP⟩
  · rintro ⟨t', ht', hP⟩
    exact ⟨_, _, ⟨t', _, ⟨ht', rfl⟩, rfl, rfl⟩, hP⟩

/-- A stored table can be used exactly if it is `Storable`: if it survives being written and
read. -/
theorem exists_mappings_equiv_iff {t : Table} {intermediary : String}
    (h : Stores p.mappingsPath t (intermediaryKey intermediary content) host)
    (hlegible : Nested.Legible t) :
    (∃ shared host', p.mappings.runFrom host = (.ok shared, host') ∧
      shared.table.equiv t = true) ↔ Nested.Storable t := by
  -- what was written in the nested dialect is found to be in it
  have hread : Format.read (Nested.write t).toUTF8 = Nested.read (Nested.write t).toUTF8 := by
    change (detect _ >>= _) = _
    rw [detect_write_nested hlegible.labels]
    rfl
  rw [exists_mappings_iff h fun t' => t'.equiv t = true, hread]
  exact Nested.exists_read_write_iff hlegible

/-- What is stored when an artifact is set up can be used exactly if it survives the file. For every
artifact whose mappings are in the nested dialect, whatever these and the intermediary mappings
hold, a setup that succeeds where nothing was has made the merged table. Those who ask for the table
get the same one, but for its order, exactly if no class, field or method in the merged one lacks
its `intermediary` name, no descriptor contains a tab or a line feed, and neither a header property
nor an unescaped name at the end of a line ends with a carriage return. -/
theorem mappings_setUp_iff (hvacant : host.files.Vacant p.workingDirectory)
    (hfresh : host.tables = {}) (hjar : Jar.Holds host config.jar mappingsMember base)
    (hdialect : detect base = .ok .nested)
    (hintermediary : host.files.read config.intermediary = .ok content)
    (hsetUp : (setUp config propose).runFrom host = (.ok p, host')) :
    ∃ t, mergedTable base content.toBytes = .ok t ∧
      ((∃ shared host'', p.mappings.runFrom host' = (.ok shared, host'') ∧
        shared.table.equiv t = true) ↔ Nested.Storable t) := by
  obtain ⟨t, hmerged, hstores⟩ :=
    stores_of_setUp hvacant hjar hdialect hintermediary hfresh hsetUp
  exact ⟨t, hmerged, exists_mappings_equiv_iff hstores (legible_of_mergedTable hmerged)⟩

/-! ## Samples -/

/-- An artifact named `yarn`. -/
def sampleConfig : Config where
  jar := "yarn.jar"
  name := "yarn"
  version := "1"
  gameVersion := "1.20"
  game := .split
  intermediary := "intermediary.tiny"
  cacheRoot := "cache"

/-- A proposer that proposes nothing. -/
def noProposer : FieldNameProposer :=
  fun _ _ _ => return

/-- The mappings in the jar of the artifact. -/
def sampleBase : ByteArray :=
  "tiny\t2\t0\tintermediary\tnamed\nc\tclass_1\tMain\n".toUTF8

/-- The mappings from `official` to `intermediary`. -/
def sampleIntermediary : ByteArray :=
  "tiny\t2\t0\tofficial\tintermediary\nc\ta\tclass_1\n".toUTF8

/-- The same mappings with another class, which has no `intermediary` name. -/
def unnamedIntermediary : ByteArray :=
  "tiny\t2\t0\tofficial\tintermediary\nc\ta\tclass_1\nc\tb\t\n".toUTF8

/-- A host with nothing but the jar of the artifact and the given `intermediary` mappings. -/
def sampleHost (intermediary : ByteArray) : Host where
  files := {
    workingDirectory := []
    nodes := .ofList [
      (["intermediary.tiny"], .file (.bytes intermediary) false),
      (["yarn.jar"], .file (.archive ((∅ : Archive).insert mappingsMember sampleBase)) false)] }

/-- The table that is made for the artifact. -/
def sampleTable : Table where
  namespaces := { labels := usedLabels, valid := by decide }
  classes := .ofList [
    ("class_1", { names := { slots := [some "class_1", some "a", some "Main"] } })]

/-- The table that is made for the artifact if a class has no `intermediary` name. -/
def unnamedTable : Table where
  namespaces := { labels := usedLabels, valid := by decide }
  classes := .ofList [
    ("b", { names := { slots := [none, some "b", none] } }),
    ("class_1", { names := { slots := [some "class_1", some "a", some "Main"] } })]

/-- `mergedTable` of both samples. -/
theorem mergedTable_samples :
    mergedTable sampleBase sampleIntermediary = .ok sampleTable ∧
      mergedTable sampleBase unnamedIntermediary = .ok unnamedTable := by
  -- keys are put into order by a sort that can be evaluated
  simp only [mergedTable, Table.merge, Table.join, Layout.joinClass, Layout.joinMethod,
    unionKeys_eq_insertionSort isKeyOrder_textLe, unionKeys_eq_insertionSort isKeyOrder_memberKey,
    unionKeys_eq_insertionSort isKeyOrder_indexLe]
  constructor
  · decide +kernel
  · decide +kernel

/-- `setUp` of both samples succeeds where nothing was. -/
theorem setUp_sample {intermediary : ByteArray}
    (h : intermediary = sampleIntermediary ∨ intermediary = unnamedIntermediary) :
    ∃ p host', (setUp sampleConfig noProposer).runFrom (sampleHost intermediary) =
      (.ok p, host') ∧ (sampleHost intermediary).files.Vacant p.workingDirectory := by
  have hsetUp : ((setUp sampleConfig noProposer).runFrom
      (sampleHost intermediary)).1.toOption.any
        (fun p => (sampleHost intermediary).files.Vacant p.workingDirectory) = true := by
    simp only [setUp, fillDirectory, takeMappings, storeMappings, makeMappings,
      mergeWithIntermediary, Table.merge, Table.join, Layout.joinClass, Layout.joinMethod,
      unionKeys_eq_insertionSort isKeyOrder_textLe,
      unionKeys_eq_insertionSort isKeyOrder_memberKey,
      unionKeys_eq_insertionSort isKeyOrder_indexLe]
    rcases h with rfl | rfl
    · decide +kernel
    · decide +kernel
  generalize (setUp sampleConfig noProposer).runFrom (sampleHost intermediary) = run at hsetUp ⊢
  obtain ⟨outcome, host'⟩ := run
  obtain ⟨p, hp, hvacant⟩ := (Option.any_eq_true ..).1 hsetUp
  exact ⟨p, host', congrArg (·, host') (toOption_eq_some_iff.1 hp), of_decide_eq_true hvacant⟩

/-- The sample can be set up, and `mappings` gives the table that was made. -/
theorem mappings_setUp_iff_sample :
    ∃ p host' shared host'', (setUp sampleConfig noProposer).runFrom
        (sampleHost sampleIntermediary) = (.ok p, host') ∧
      p.mappings.runFrom host' = (.ok shared, host'') ∧ shared.table.equiv sampleTable = true := by
  have hdialect : detect sampleBase = .ok .nested := by decide +kernel
  obtain ⟨p, host', hsetUp, hvacant⟩ := setUp_sample (.inl rfl)
  obtain ⟨t, ht, hiff⟩ := mappings_setUp_iff hvacant rfl (by decide +kernel) hdialect rfl hsetUp
  obtain rfl := Except.ok.inj (mergedTable_samples.1.symm.trans ht)
  obtain ⟨shared, host'', hshared⟩ := hiff.2 (by decide +kernel)
  exact ⟨p, host', shared, host'', hsetUp, hshared⟩

/-- With a class that has no `intermediary` name the setup succeeds as well, but those who ask for
the table do not get the one that was made. -/
theorem mappings_setUp_unnamed :
    ∃ p host', (sampleHost unnamedIntermediary).files.Vacant p.workingDirectory ∧
      Jar.Holds (sampleHost unnamedIntermediary) sampleConfig.jar mappingsMember sampleBase ∧
      detect sampleBase = .ok .nested ∧
      (sampleHost unnamedIntermediary).files.read sampleConfig.intermediary =
        .ok (.bytes unnamedIntermediary) ∧
      (setUp sampleConfig noProposer).runFrom (sampleHost unnamedIntermediary) = (.ok p, host') ∧
      mergedTable sampleBase unnamedIntermediary = .ok unnamedTable ∧
      ¬∃ shared host'', p.mappings.runFrom host' = (.ok shared, host'') ∧
        shared.table.equiv unnamedTable = true := by
  have hdialect : detect sampleBase = .ok .nested := by decide +kernel
  have hjar : Jar.Holds (sampleHost unnamedIntermediary) sampleConfig.jar mappingsMember
      sampleBase := by decide +kernel
  obtain ⟨p, host', hsetUp, hvacant⟩ := setUp_sample (.inr rfl)
  -- if the table could be used it would be storable, but the class `b` has no source name in it
  obtain ⟨t, ht, hstores⟩ := stores_of_setUp hvacant hjar hdialect rfl rfl hsetUp
  obtain rfl := Except.ok.inj (mergedTable_samples.2.symm.trans ht)
  refine ⟨p, host', hvacant, hjar, hdialect, rfl, hsetUp, ht, fun hshared => ?_⟩
  have hstorable := (exists_mappings_equiv_iff hstores (legible_of_mergedTable ht)).1 hshared
  exact absurd hstorable (by decide +kernel)

end Artifact.Provider

end MappingTables
