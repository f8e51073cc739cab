import MappingTables.Proofs.Agreement
import MappingTables.Proofs.Artifact.WorkingDirectory

/-!
# Setups that do the same

Each step of a setup does the same on hosts that are alike where its paths lead. How the mappings
are made anew depends on the input files and on nothing that was in the working directory.

* `Artifact.FieldNameProposer.DependsOnInputs`: what is asked of a proposer.
* `Provider.rebuild`: what a setup does in a working directory in which nothing is to be trusted.
* `Provider.agreesAt_rebuild`: it does the same on hosts that are alike.
-/

namespace MappingTables.Artifact

open Step

/-- Whether what `propose` does depends on its inputs only: it does the same on hosts that hold the
same where the three paths lead that it is given. It has nothing to do with the tables. -/
def FieldNameProposer.DependsOnInputs (propose : FieldNameProposer) : Prop :=
  ∀ (v : View) (T : Service → Service → Prop) gameJar base out,
    v.Covers gameJar → v.Covers base → v.Covers out →
      Agrees (Host.Alike v T) (propose gameJar base out)

/-- The files from which the mappings of an artifact are made that a `config` asks for. -/
def Config.inputs (config : Config) : List String :=
  [config.jar, config.intermediary] ++
    match config.game with
    | .merged jar => [jar]
    | .split => []

/-- Whether a view covers the ways to the files in a working `directory`. -/
def WorkingDirectory.IsSeen (v : View) (directory : String) : Prop :=
  v.Covers directory ∧ ∀ name, Path.IsName name → v.Covers (Path.join directory name)

namespace Provider

open WorkingDirectory

variable {v : View} {T : Service → Service → Prop} {p : Provider} {config : Config}
  {propose : FieldNameProposer} {host host' : Host} {jar : OpenArchive}

theorem agrees_inspectJar {path : String} (hpath : v.Covers path) :
    Agrees (Host.Alike v T) (inspectJar path) := by
  intro host host' halike
  refine (Jar.agrees_load hpath _ _ halike).bind fun jar t t' hload _ ht => ?_
  have hjar : v.Sees jar.location := Jar.sees_location hpath halike.files.left hload
  refine (Jar.agrees_read? hjar _ _ _ ht).bind fun bytes? s s' _ _ hs => ?_
  cases bytes? with
  | none => exact Agrees.fail _ _ _ hs
  | some bytes => exact Agrees.ofExcept _ _ _ hs

/-! ## Extras -/

section Extras

theorem agrees_storeUnpick (hseen : IsSeen v p.workingDirectory)
    (definitions metadata : ByteArray) :
    Agrees (Host.Alike v T) (p.storeUnpick config definitions metadata) := by
  refine (Action.agrees_write (hseen.2 _ (by decide)) _).within.bind fun _ => ?_
  exact (Action.agrees_write (hseen.2 _ (by decide)) _).within.bind fun _ => .ofExcept _

theorem agrees_takeUnpick (hseen : IsSeen v p.workingDirectory) (hjar : v.Sees jar.location) :
    Agrees (Host.Alike v T) (p.takeUnpick config jar) := by
  refine (Jar.agrees_read? hjar _).bind fun definitions => ?_
  refine (Jar.agrees_read? hjar _).bind fun metadata => ?_
  split
  · exact (agrees_storeUnpick hseen _ _).map
  · exact .pure _

theorem agrees_takeSignatures (hjar : v.Sees jar.location) :
    Agrees (Host.Alike v T) (takeSignatures config jar) := by
  refine (Jar.agrees_read? hjar _).bind fun bytes? => ?_
  split
  · exact (Agrees.ofExcept _).map
  · exact .pure _

theorem agrees_withExtras (hseen : IsSeen v p.workingDirectory) (hjar : v.Sees jar.location) :
    Agrees (Host.Alike v T) (p.withExtras config jar) :=
  (agrees_takeUnpick hseen hjar).bind fun _ =>
    (agrees_takeSignatures hjar).bind fun _ => .pure _

end Extras

/-! ## Mappings -/

/-- Merges the tables of the two files, in the namespaces `intermediary`, `official` and `named`. -/
def mergeTables (base intermediary : String) (baseTable table : Table) : Action Table := do
  let (merged, _) ← within (.mergeIntermediary base intermediary)
    (Action.ofNoted (table.merge baseTable))
  Step.ofExcept (within .mergedNamespaces
    (merged.namespaces.expect ["intermediary", "official", "named"]))
  let (completed, _) ← Action.ofNoted (merged.complete "named" "intermediary")
  return completed

theorem mergeWithIntermediary_eq (base intermediary : String) :
    mergeWithIntermediary base intermediary = (do
      let baseTable ← MappingsFile.read base
      let source ← Source.ofFile intermediary
      let shared ← within (.readIntermediary intermediary) (source.getOrRead "intermediary")
      mergeTables base intermediary baseTable shared.table) :=
  rfl

theorem agrees_mergeTables (base intermediary : String) (baseTable table : Table) :
    Agrees (Host.Alike v T) (mergeTables base intermediary baseTable table) := by
  refine (Action.agrees_ofNoted _).within.bind fun ⟨merged, conflicts⟩ => ?_
  refine .bind (.ofExcept _) fun _ => ?_
  exact (Action.agrees_ofNoted _).bind fun _ => .pure _

/-- `mergeWithIntermediary` depends on the two files and on the intermediary table, however that is
come by. -/
theorem agreesAt_mergeWithIntermediary {base intermediary : String} (hbase : v.Covers base)
    (hintermediary : v.Covers intermediary) (halike : Host.Alike v T host host')
    (hget : ∀ source, (Source.ofFile intermediary).runFrom host = (.ok source, host) →
      AgreesAt (Host.Alike v T) (SharedTable.table <$>
        within (.readIntermediary intermediary) (source.getOrRead "intermediary")) host host') :
    AgreesAt (Host.Alike v T) (mergeWithIntermediary base intermediary) host host' := by
  rw [mergeWithIntermediary_eq]
  refine (MappingsFile.agrees_read hbase _ _ halike).bind fun baseTable t t' hrun hrun' _ => ?_
  obtain rfl := (MappingsFile.leavesState_read base).eq_of_ok hrun
  obtain rfl := (MappingsFile.leavesState_read base).eq_of_ok hrun'
  refine (Source.agrees_ofFile hintermediary _ _ halike).bind fun source t t' hrun hrun' _ => ?_
  obtain rfl := (Source.leavesState_ofFile intermediary).eq_of_ok hrun
  obtain rfl := (Source.leavesState_ofFile intermediary).eq_of_ok hrun'
  exact (hget source hrun).bind_map fun table =>
    agrees_mergeTables base intermediary baseTable table

/-- With the same tables, `mergeWithIntermediary` comes by the intermediary table alike. -/
theorem agrees_mergeWithIntermediary {base intermediary : String} (hbase : v.Covers base)
    (hintermediary : v.Covers intermediary) :
    Agrees (Host.Alike v Eq) (mergeWithIntermediary base intermediary) := by
  intro host host' halike
  refine agreesAt_mergeWithIntermediary hbase hintermediary halike fun source hsource => ?_
  obtain ⟨bytes, t, -, hsource⟩ := runFrom_bind_eq_ok_iff.1 hsource
  rw [runFrom_pure, Prod.mk.injEq, Except.ok.injEq] at hsource
  obtain ⟨rfl, -⟩ := hsource
  have hget : Agrees (Host.Alike v Eq)
      ((Source.ofBytes intermediary none bytes).getOrRead "intermediary") :=
    Source.agrees_getOrRead (s := .ofBytes intermediary none bytes) hintermediary rfl _
  exact hget.within.map _ _ halike

theorem agrees_removeMappings (hseen : IsSeen v p.workingDirectory) :
    Agrees (Host.Alike v T) p.removeMappings := by
  refine (Action.agrees_isPresent (hseen.2 _ (by decide))).bind fun present => ?_
  split
  · exact (Action.agrees_removeFile (hseen.2 _ (by decide))).within
  · exact .pure _

variable (hseen : IsSeen v p.workingDirectory) (hinputs : ∀ path ∈ config.inputs, v.Covers path)
  (hpropose : propose.DependsOnInputs)

include hseen hinputs hpropose

/-- `Provider.makeMappings` depends on the mappings of the jar, and on the intermediary ones or the
game jar. -/
theorem agreesAt_makeMappings (halike : Host.Alike v T host host')
    (hmerge :
      AgreesAt (Host.Alike v T) (mergeWithIntermediary p.base config.intermediary) host host') :
    AgreesAt (Host.Alike v T) (p.makeMappings config propose) host host' := by
  have hbase : v.Covers p.base := hseen.2 _ (by decide)
  have hmappings : v.Covers p.mappingsPath := hseen.2 _ (by decide)
  refine (MappingsFile.agrees_detect hbase _ _ halike).bind fun dialect t t' hrun hrun' _ => ?_
  -- the dialect is found by reading alone, so both runs go on where they were
  obtain rfl := (MappingsFile.leavesState_detect p.base).eq_of_ok hrun
  obtain rfl := (MappingsFile.leavesState_detect p.base).eq_of_ok hrun'
  cases dialect with
  | nested =>
    exact hmerge.bind fun table t t' _ _ ht => MappingsFile.agrees_write hmappings _ _ t t' ht
  | plain =>
    dsimp only
    cases hgame : config.game with
    | merged gameJar =>
      have hjar : v.Covers gameJar := hinputs gameJar (by simp [Config.inputs, hgame])
      exact ((agrees_removeMappings hseen).bind fun _ =>
        hpropose v T _ _ _ hjar hbase hmappings) _ _ halike
    | split => exact Agrees.fail _ _ _ halike

/-- `Provider.storeMappings` takes the same from the jar before the mappings are made. -/
theorem agreesAt_storeMappings (halike : Host.Alike v T host host')
    (hmerge : ∀ t t', Host.EditsIn p.workingDirectory fileNames host t →
      Host.NoNewDirectories host t → Host.Alike v T t t' → AgreesAt (Host.Alike v T)
        (mergeWithIntermediary p.base config.intermediary) t t') :
    AgreesAt (Host.Alike v T) (p.storeMappings config propose) host host' := by
  have hbase : v.Covers p.base := hseen.2 _ (by decide)
  have hjarPath : v.Covers config.jar := hinputs _ List.mem_cons_self
  refine (Action.agrees_notice _ _ _ halike).bind fun _ t₁ t₁' hnotice _ halike₁ => ?_
  refine (Jar.agrees_load hjarPath _ _ halike₁).bind fun jar t₂ t₂' hload _ halike₂ => ?_
  have hjar : v.Sees jar.location := Jar.sees_location hjarPath halike₁.files.left hload
  refine (Jar.agrees_extract hjar hbase _ _ _ halike₂).bind
    fun extracted t₃ t₃' hextract _ halike₃ => ?_
  cases extracted with
  | false => exact Agrees.fail _ _ _ halike₃
  | true =>
    change AgreesAt _ (p.withExtras config jar >>= fun p => _) t₃ t₃'
    refine (agrees_withExtras hseen hjar _ _ halike₃).bind fun p' t₄ t₄' hextras _ halike₄ => ?_
    -- until here only files of the working directory were written
    obtain rfl := (Jar.leavesState_load _).eq_of_ok hload
    have hsame := (Action.runFrom_notice_eq_ok hnotice).1
    have hedits : Host.EditsIn p.workingDirectory fileNames t₂ t₄ :=
      trans_of _ ((Jar.respects_extract (by decide) (by decide) jar _).of_eq hextract)
        ((p.respects_withExtras config (by decide) jar).of_eq hextras)
    have hdirectories : Host.NoNewDirectories t₂ t₄ :=
      trans_of _ ((Jar.respects_extract_of (Action.noNewDirectories_write _) jar _).of_eq hextract)
        ((p.respects_withExtras_of config (Action.noNewDirectories_write _)
          (Action.noNewDirectories_write _) jar).of_eq hextras)
    rw [Host.EditsIn, hsame] at hedits
    rw [Host.NoNewDirectories, hsame] at hdirectories
    have hdirectory := workingDirectory_of_withExtras hextras
    have hbase' : p'.base = p.base := by rw [base, file, base, file, hdirectory]
    refine (agreesAt_makeMappings (hdirectory ▸ hseen) hinputs hpropose halike₄ ?_).bind
      fun _ t t' _ _ ht => Agrees.pure _ t t' ht
    rw [hbase']
    exact hmerge t₄ t₄' hedits hdirectories halike₄

omit hinputs hpropose in
theorem agrees_storeJar : Agrees (Host.Alike v T) p.storeJar := by
  have hjar : v.Covers p.mappingsJar := hseen.2 _ (by decide)
  have hrest : Agrees (Host.Alike v T) (do
      let content ← within (.readFile p.mappingsPath) (Action.query (·.read p.mappingsPath))
      Jar.writeSingle p.mappingsJar mappingsMember content.toBytes) := by
    refine (Action.agrees_query fun _ _ h => h.read_eq (hseen.2 _ (by decide))).within.bind
      fun content => ?_
    exact Jar.agrees_writeSingle hjar _ _
  refine (Action.agrees_isPresent hjar).bind fun present => ?_
  split
  · exact (Action.agrees_removeFile hjar).within.bind fun _ => hrest
  · exact hrest

omit hseen hinputs hpropose

/-! ## Making everything anew -/

/-- Makes the mappings by `storeMappings` and the jar by `storeJar`, whatever is there. -/
def rebuild (p : Provider) (config : Config) (propose : FieldNameProposer) : Action Provider := do
  let p ← p.storeMappings config propose
  p.storeJar
  return p

theorem rebuild_eq_ok {p' : Provider}
    (h : (p.rebuild config propose).runFrom host = (.ok p', host')) :
    ∃ (t : Host) (u : Unit), (p.storeMappings config propose).runFrom host = (.ok p', t) ∧
      p'.storeJar.runFrom t = (.ok u, host') := by
  obtain ⟨p₁, t, hstored, h⟩ := runFrom_bind_eq_ok_iff.1 h
  obtain ⟨u, t', hjar, h⟩ := runFrom_bind_eq_ok_iff.1 h
  cases h
  exact ⟨t, u, hstored, hjar⟩

theorem respects_rebuild (p : Provider) (config : Config) (hpropose : propose.WritesOnly) :
    Respects (Host.EditsIn p.workingDirectory fileNames) (p.rebuild config propose) := by
  have hstore : Respects (Host.EditsIn p.workingDirectory fileNames)
      (p.storeMappings config propose) :=
    (p.respects_storeMappings config hpropose).mono fun _ _ h => h.mono (List.dropLast_subset _)
  refine hstore.bind_of_ok fun p' s t hok => ?_
  rw [← workingDirectory_of_storeMappings hok]
  exact (p'.respects_storeJar (by decide)).bind fun _ => .pure _

/-- With `refresh`, `fillMappings` trusts nothing that is there, and makes everything anew as
`rebuild` does. -/
theorem runFrom_fillMappings_of_refresh (hrefresh : config.refresh = true) :
    (p.fillMappings config propose).runFrom host = (p.rebuild config propose).runFrom host := by
  have htake : (p.takeMappings config propose).runFrom host =
      (p.storeMappings config propose).runFrom host := by
    rw [takeMappings, runFrom_bind, Action.runFrom_isPresent]
    dsimp only
    rw [if_pos (by simp [hrefresh])]
  rw [fillMappings, rebuild, runFrom_bind, runFrom_bind, htake]
  rcases (p.storeMappings config propose).runFrom host with ⟨outcome, t⟩
  cases outcome with
  | error failure => rfl
  | ok p' =>
    dsimp only
    rw [runFrom_bind, Action.runFrom_isPresent]
    dsimp only
    rw [if_pos (by simp [hrefresh])]

/-- `fillMappings` does what `rebuild` does if nothing is there yet. -/
theorem runFrom_fillMappings_of_free (hpropose : propose.WritesOnly)
    (hfree : host.files.Free p.workingDirectory ["mappings.tiny", "mappings.jar"]) :
    (p.fillMappings config propose).runFrom host = (p.rebuild config propose).runFrom host := by
  have htake : (p.takeMappings config propose).runFrom host =
      (p.storeMappings config propose).runFrom host := by
    have habsent : host.files.isPresent p.mappingsPath = false :=
      hfree.isPresent_eq_false (by decide) (by decide)
    rw [takeMappings, runFrom_bind, Action.runFrom_isPresent]
    dsimp only
    rw [if_pos (by simp [habsent])]
  rw [fillMappings, rebuild, runFrom_bind, runFrom_bind, htake]
  have hedits := p.respects_storeMappings config hpropose host
  rcases hstored : (p.storeMappings config propose).runFrom host with ⟨outcome, t⟩
  rw [hstored] at hedits
  cases outcome with
  | error failure => rfl
  | ok p' =>
    -- the jar is no concern of what was made so far
    have habsent : t.files.isPresent p'.mappingsJar = false := by
      rw [mappingsJar, file, workingDirectory_of_storeMappings hstored]
      apply FileStore.isPresent_eq_false
      rw [FileStore.target_join (by decide), hedits.target_eq, hedits.node?_eq (by decide)]
      exact hfree "mappings.jar" (by decide)
    dsimp only
    rw [runFrom_bind, Action.runFrom_isPresent]
    dsimp only
    rw [if_pos (by simp [habsent])]

/-- `rebuild` makes everything alike on hosts that are alike, if the merged tables are. -/
theorem agreesAt_rebuild (hseen : IsSeen v p.workingDirectory)
    (hinputs : ∀ path ∈ config.inputs, v.Covers path) (hpropose : propose.DependsOnInputs)
    (halike : Host.Alike v T host host')
    (hmerge : ∀ t t', Host.EditsIn p.workingDirectory fileNames host t →
      Host.NoNewDirectories host t → Host.Alike v T t t' → AgreesAt (Host.Alike v T)
        (mergeWithIntermediary p.base config.intermediary) t t') :
    AgreesAt (Host.Alike v T) (p.rebuild config propose) host host' := by
  refine (agreesAt_storeMappings hseen hinputs hpropose halike hmerge).bind
    fun p' t t' hstored _ ht => ?_
  have hseen' : IsSeen v p'.workingDirectory := by
    rw [workingDirectory_of_storeMappings hstored]
    exact hseen
  exact ((agrees_storeJar hseen').bind fun _ => .pure _) t t' ht

end Provider

end MappingTables.Artifact
