import MappingTables.Proofs.Artifact.Agreement

/-!
# The intermediary table that is kept

The table of the intermediary mappings is built once and kept. As long as their file does not
change, it does not matter whether the table is kept already or has to be built.

* `Provider.IsCurrent`: whether the table that is kept is that of the file.
* `Provider.runFrom_getOrRead`: what is given out, and what is kept afterwards.
* `Provider.agreesAt_mergeWithIntermediary_of_current`: mappings are merged alike on hosts that keep
  the table and on those that do not.
-/

namespace MappingTables.Artifact.Provider

open Step

variable {v : View} {host host' : Host} {path : String} {content : FileContent}

/-- The table of the intermediary mappings, made of the `content` that their file holds at a
`path`. -/
def switchedTable (path : String) (content : FileContent) : Except Failure Table := do
  let t ← within (.readMappings path) (Format.readInput { bytes := content.toBytes })
  (t.switchSource "intermediary").outcome

/-- Whether the table that is kept for the intermediary mappings, if there is one, is the
`switchedTable` that their file stands for. -/
def IsCurrent (path : String) (content : FileContent) (tables : Service) : Prop :=
  ∀ shared, tables.get? (intermediaryKey path content) = some shared →
    switchedTable path content = .ok shared.table

theorem isCurrent_empty (path : String) (content : FileContent) : IsCurrent path content {} :=
  nofun

theorem IsCurrent.reserve {tables : Service} (h : IsCurrent path content tables) (key : String) :
    IsCurrent path content (tables.reserve key) := by
  intro shared hshared
  rw [Service.get?_reserve] at hshared
  exact h shared hshared

/-- The table of a source that is a file is built from the file: it is the `switchedTable`. -/
theorem runFrom_buildSwitched (host : Host) (hread : host.files.read path = .ok content) :
    ∃ host', (do
        let t ← (Source.ofBytes path none content.toBytes).read
        Action.ofNoted (t.switchSource "intermediary") : Action Table).runFrom host =
          (switchedTable path content, host') ∧
      host'.files = host.files ∧ host'.tables = host.tables := by
  have hrun : (Source.ofBytes path none content.toBytes).read.runFrom host =
      (within (.readMappings path) (Format.readInput { bytes := content.toBytes }), host) :=
    MappingsFile.runFrom_readIn _ _ hread
  rw [runFrom_bind, hrun, switchedTable]
  cases within (.readMappings path) (Format.readInput { bytes := content.toBytes }) with
  | error failure => exact ⟨host, rfl, rfl, rfl⟩
  | ok t => exact ⟨_, rfl, rfl, rfl⟩

/-- `getOrRead` gives what is made of the file of the intermediary table, if the table that is kept
`IsCurrent`, and then it stays so. -/
theorem runFrom_getOrRead (hread : host.files.read path = .ok content)
    (hcurrent : IsCurrent path content host.tables) :
    ∃ host', (SharedTable.table <$>
        (Source.ofBytes path none content.toBytes).getOrRead "intermediary").runFrom host =
          (within (.buildTable (intermediaryKey path content))
            (switchedTable path content), host') ∧
      host'.files = host.files ∧ IsCurrent path content host'.tables := by
  rw [Source.getOrRead, ← intermediaryKey, runFrom_map]
  cases hkept : host.tables.get? (intermediaryKey path content) with
  | some shared =>
    rw [Action.runFrom_getOrCreate_of_kept hkept, hcurrent shared hkept, within_ok]
    exact ⟨host, rfl, rfl, hcurrent⟩
  | none =>
    rw [Action.runFrom_getOrCreate_of_none hkept]
    obtain ⟨t, hbuild, hfiles, htables⟩ := runFrom_buildSwitched
      { host with tables := host.tables.reserve (intermediaryKey path content) } hread
    rw [hbuild]
    -- a table that could not be built is not kept, only its key stays reserved
    have hreserved : IsCurrent path content t.tables := htables ▸ hcurrent.reserve _
    cases hswitched : switchedTable path content with
    | error failure => exact ⟨t, rfl, hfiles, hreserved⟩
    | ok table =>
      refine ⟨_, rfl, hfiles, fun shared hshared => ?_⟩
      rw [Service.get?_store_self] at hshared
      obtain rfl := Option.some.inj hshared
      exact hswitched

/-- Whether both services keep current tables for the intermediary mappings, if these can be
read. -/
def BothCurrent (fs : FileStore) (path : String) (tables tables' : Service) : Prop :=
  ∀ content, fs.read path = .ok content →
    IsCurrent path content tables ∧ IsCurrent path content tables'

/-- `mergeWithIntermediary` does the same, whether or not the intermediary table is kept already. -/
theorem agreesAt_mergeWithIntermediary_of_current {fs : FileStore} {base : String}
    (hbase : v.Covers base) (hpath : v.Covers path)
    (halike : Host.Alike v (BothCurrent fs path) host host')
    (hsame : ∀ content, host.files.read path = .ok content → fs.read path = .ok content) :
    AgreesAt (Host.Alike v (BothCurrent fs path)) (mergeWithIntermediary base path) host host' := by
  refine agreesAt_mergeWithIntermediary hbase hpath halike fun source hsource => ?_
  obtain ⟨content, hread⟩ := Source.exists_read_of_runFrom_ofFile hsource
  rw [Source.runFrom_ofFile hread, Prod.mk.injEq, Except.ok.injEq] at hsource
  obtain ⟨rfl, -⟩ := hsource
  -- on both sides there is a table already, and it is the one of this content
  obtain ⟨hcurrent, hcurrent'⟩ := halike.tables content (hsame content hread)
  obtain ⟨t, hrun, hfiles, hkept⟩ := runFrom_getOrRead hread hcurrent
  obtain ⟨t', hrun', hfiles', hkept'⟩ :=
    runFrom_getOrRead ((halike.files.read_eq hpath).trans hread) hcurrent'
  have hget : AgreesAt (Host.Alike v (BothCurrent fs path)) (SharedTable.table <$>
      (Source.ofBytes path none content.toBytes).getOrRead "intermediary") host host' := by
    rw [AgreesAt, hrun, hrun']
    refine ⟨rfl, hfiles.symm ▸ hfiles'.symm ▸ halike.files, fun content' hread' => ?_⟩
    obtain rfl := Except.ok.inj (hread'.symm.trans (hsame content hread))
    exact ⟨hkept, hkept'⟩
  exact hget.map_within

end MappingTables.Artifact.Provider
