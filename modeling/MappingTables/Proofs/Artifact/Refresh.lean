import MappingTables.Proofs.Artifact.Agreement
import MappingTables.Proofs.Artifact.CacheRoot

/-!
# Making everything anew

A setup that makes everything anew starts by removing the working directory. What was in there is of
no consequence then, whether the setup succeeds or fails.

* `WorkingDirectory.IsRemovable`: whether a working directory is absent or can be removed.
* `WorkingDirectory.IsRemovable.agreeIn_cleared`: without it, files that differ in it only are the
  same.
* `Provider.setUp_refresh`: a setup forgets what was in the working directory.
-/

namespace MappingTables.Artifact

open Step

namespace WorkingDirectory

variable {v : View} {T : Service → Service → Prop} {fs fs' : FileStore} {directory : String}
  {host host' : Host}

/-! ## Removing what is there -/

/-- All places but the working `directory` and those in it. -/
def outside (fs : FileStore) (directory : String) : View :=
  ⟨fs.workingDirectory, fun place => ¬fs.target directory <+: place⟩

/-- Whether a working `directory` is absent, or can be removed with all that is in it. -/
def IsRemovable (fs : FileStore) (directory : String) : Prop :=
  IsAbsent fs directory ∨ fs.find directory = .ok .directory ∧
    (fs.removeDirectory directory).1 = .ok () ∧ IsAbsent (fs.removeDirectory directory).2 directory

/-- The files after a working `directory` was removed, if it was there. -/
def cleared (fs : FileStore) (directory : String) : FileStore :=
  if fs.isPresent directory then (fs.removeDirectory directory).2 else fs

/-- What `IsRemovable` is absent afterwards, and nothing else has changed. -/
theorem IsRemovable.cleared (h : IsRemovable fs directory) :
    IsAbsent (cleared fs directory) directory ∧
      fs.AgreeIn (outside fs directory) (WorkingDirectory.cleared fs directory) := by
  rcases h with habsent | ⟨hfind, -, habsent⟩
  · have hpresent : fs.isPresent directory = false :=
      FileStore.isPresent_eq_false (by simpa using habsent [])
    rw [WorkingDirectory.cleared, hpresent, if_neg Bool.false_ne_true]
    exact ⟨habsent, .refl rfl⟩
  · rw [WorkingDirectory.cleared, if_pos (FileStore.isPresent_of_find hfind)]
    exact ⟨habsent, .of_confined (fs.confined_removeDirectory directory) rfl fun _ => id⟩

/-- Files that differ in a working directory only are the same after it was `cleared` in both. -/
theorem IsRemovable.agreeIn_cleared (h : IsRemovable fs directory) (h' : IsRemovable fs' directory)
    (hsame : fs.AgreeIn (outside fs directory) fs') :
    (WorkingDirectory.cleared fs directory).AgreeIn (.all fs.workingDirectory)
      (WorkingDirectory.cleared fs' directory) := by
  obtain ⟨habsent, hcleared⟩ := h.cleared
  obtain ⟨habsent', hcleared'⟩ := h'.cleared
  rw [IsAbsent, hcleared.target_eq] at habsent
  rw [IsAbsent, hcleared'.target_eq, hsame.target_eq] at habsent'
  refine ⟨hcleared.working, hcleared'.working.trans hsame.working,
    hcleared'.interrupts.trans (hsame.interrupts.trans hcleared.interrupts.symm), fun place _ => ?_⟩
  by_cases hplace : fs.target directory <+: place
  · obtain ⟨below, rfl⟩ := hplace
    rw [habsent', habsent]
  · rw [hcleared'.node?_eq place (by rwa [outside, hsame.target_eq]), hsame.node?_eq place hplace,
      hcleared.node?_eq place hplace]

/-! ## Cleaning -/

/-- `Provider.clean` does the same where the files are the same after the working directory was
`cleared`. -/
theorem agreesAt_clean (hdirectory : v.Covers directory)
    (hcleared : (cleared host.files directory).AgreeIn v (cleared host'.files directory))
    (htables : T host.tables host'.tables) :
    AgreesAt (Host.Alike v T) (Provider.clean directory) host host' := by
  obtain ⟨t, hrun, hfiles, hkept⟩ := Provider.runFrom_clean directory host
  obtain ⟨t', hrun', hfiles', hkept'⟩ := Provider.runFrom_clean directory host'
  rw [AgreesAt, hrun, hrun']
  refine ⟨rfl, ?_, ?_⟩
  · rw [hfiles, hfiles']
    exact (hcleared.createDirectories hdirectory).2
  · rwa [hkept, hkept']

theorem agrees_clean (hdirectory : v.Covers directory) :
    Agrees (Host.Alike v T) (Provider.clean directory) := by
  refine fun host host' halike => agreesAt_clean hdirectory ?_ halike.tables
  rw [cleared, cleared, halike.files.isPresent_eq hdirectory]
  split
  · exact (halike.files.removeDirectory hdirectory).2
  · exact halike.files

theorem isSeen_all (start : Location) (directory : String) : IsSeen (.all start) directory :=
  ⟨View.all_covers start directory, fun _ _ => View.all_covers start _⟩

end WorkingDirectory

namespace Provider

open WorkingDirectory

variable {config : Config} {propose : FieldNameProposer} {host host' : Host} {p : Provider}
  {inspection inspection' : Inspection}

/-! ## Setting up -/

/-- Fills the working directory by `fillDirectory`, or cleans it by `clean`. -/
def fillOrClean (p : Provider) (config : Config) (propose : FieldNameProposer) : Action Provider :=
  tryCatch (p.fillDirectory config propose) fun failure => do
    clean p.workingDirectory
    throw (failure.within (.setUp config.name config.version))

/-- Before `fillOrClean`, `setUp` changes nothing but notices. -/
theorem runFrom_setUp (config : Config) (propose : FieldNameProposer)
    (hinspect : ((inspectJar config.jar).runFrom host).1 = .ok inspection) :
    ∃ t : Host, t.files = host.files ∧ t.tables = host.tables ∧
      (setUp config propose).runFrom host =
        ((ofConfig config inspection.dialect).fillOrClean config propose).runFrom t := by
  have hinspected : (inspectJar config.jar).runFrom host = (.ok inspection, host) :=
    Prod.ext hinspect (leavesState_inspectJar _ host)
  obtain ⟨t, hchecked, -⟩ := runFrom_checkGameVersion config inspection host
  obtain ⟨hfiles, htables⟩ := runFrom_checkGameVersion_eq_ok hchecked
  refine ⟨t, hfiles, htables, ?_⟩
  rw [setUp, runFrom_bind, hinspected]
  dsimp only
  rw [runFrom_bind, hchecked]
  rfl

/-- If `inspectJar` succeeds on two hosts, it gives the same, if the jar is at a place at which they
agree. -/
theorem inspection_unique {v : View} {jar : String} (h : host.files.AgreeIn v host'.files)
    (hjar : v.Sees (host.files.target jar))
    (hinspect : ((inspectJar jar).runFrom host).1 = .ok inspection)
    (hinspect' : ((inspectJar jar).runFrom host').1 = .ok inspection') :
    inspection' = inspection := by
  have hrun : (inspectJar jar).runFrom host = (.ok inspection, host) :=
    Prod.ext hinspect (leavesState_inspectJar _ host)
  have hrun' : (inspectJar jar).runFrom host' = (.ok inspection', host') :=
    Prod.ext hinspect' (leavesState_inspectJar _ host')
  rw [inspectJar, runFrom_bind_eq_ok_iff] at hrun hrun'
  obtain ⟨archive, t, hload, hread⟩ := hrun
  obtain ⟨archive', t', hload', hread'⟩ := hrun'
  obtain rfl := Jar.load_unique h hjar hload hload'
  obtain rfl := (Jar.leavesState_load jar).eq_of_ok hload
  obtain rfl := (Jar.leavesState_load jar).eq_of_ok hload'
  -- the same file is read on both
  have hsees : v.Sees archive'.location := by
    obtain ⟨-, hlocate, -⟩ := Jar.runFrom_load_eq_ok_iff.1 hload
    rwa [FileStore.locate_eq_ok hlocate]
  obtain ⟨outcome, houtcome⟩ := Jar.runFrom_read? archive' mappingsMember
  rw [runFrom_bind, houtcome] at hread hread'
  rw [Jar.currentContent_eq h hsees] at hread'
  generalize outcome (archive'.currentContent t.files) = read at hread hread'
  cases read with
  | error failure => cases hread
  | ok bytes? =>
    cases bytes? with
    | none => cases hread
    | some bytes =>
      have hfirst := congrArg Prod.fst hread
      have hsecond := congrArg Prod.fst hread'
      exact Except.ok.inj (hsecond.symm.trans hfirst)

/-- With `refresh`, `fillDirectory` does the same on two hosts that differ in the working directory
only. -/
theorem agreesAt_fillDirectory (hrefresh : config.refresh = true)
    (hpropose : propose.DependsOnInputs)
    (hsame : host.files.AgreeIn (outside host.files p.workingDirectory) host'.files)
    (htables : host.tables = host'.tables)
    (hremovable : IsRemovable host.files p.workingDirectory)
    (hremovable' : IsRemovable host'.files p.workingDirectory) :
    AgreesAt (Host.Alike (.all host.files.workingDirectory) Eq) (p.fillDirectory config propose)
      host host' := by
  have hcovers : ∀ path, (View.all host.files.workingDirectory).Covers path := View.all_covers _
  have hseen := isSeen_all host.files.workingDirectory p.workingDirectory
  have hmake : AgreesAt (Host.Alike (.all host.files.workingDirectory) Eq) (p.makeDirectory config)
      host host' := by
    rw [makeDirectory, if_pos hrefresh]
    refine (agreesAt_clean (hcovers _) (hremovable.agreeIn_cleared hremovable' hsame) htables).bind
      fun _ t t' _ _ ht => ?_
    exact (Action.agrees_createDirectories (hcovers _)).within t t' ht
  -- from here on there is no difference left between the two
  rw [fillDirectory_eq]
  refine hmake.bind fun _ t t' _ _ ht => ?_
  rw [AgreesAt, runFrom_fillMappings_of_refresh hrefresh, runFrom_fillMappings_of_refresh hrefresh]
  refine agreesAt_rebuild hseen (fun path _ => hcovers path) hpropose ht fun s s' _ _ hs => ?_
  exact agrees_mergeWithIntermediary (hcovers _) (hcovers _) s s' hs

/-- A `setUp` with `refresh` forgets what was in the working directory. On two hosts with the same
tables whose files differ in the working directory only, and from which it can be removed, the setup
gives the same provider or fails with the same failure, and the files are the same afterwards. Of
the `inputs`, only the jar is looked at before the working directory is removed. -/
theorem setUp_refresh (hrefresh : config.refresh = true) (hpropose : propose.DependsOnInputs)
    (hinspect : ((inspectJar config.jar).runFrom host).1 = .ok inspection)
    (hinspect' : ((inspectJar config.jar).runFrom host').1 = .ok inspection')
    (hp : p = ofConfig config inspection.dialect)
    (hjar : ¬host.files.target p.workingDirectory <+: host.files.target config.jar)
    (hsame : host.files.AgreeIn (outside host.files p.workingDirectory) host'.files)
    (htables : host.tables = host'.tables)
    (hremovable : IsRemovable host.files p.workingDirectory)
    (hremovable' : IsRemovable host'.files p.workingDirectory) :
    ((setUp config propose).runFrom host').1 = ((setUp config propose).runFrom host).1 ∧
      (∀ place, ((setUp config propose).runFrom host').2.files.node? place =
        ((setUp config propose).runFrom host).2.files.node? place) ∧
      ((setUp config propose).runFrom host').2.tables =
        ((setUp config propose).runFrom host).2.tables := by
  -- both runs inspect the same jar, so there is one dialect and one provider
  obtain rfl := inspection_unique hsame hjar hinspect hinspect'
  obtain ⟨t, hfiles, hkept, hrun⟩ := runFrom_setUp config propose hinspect
  obtain ⟨t', hfiles', hkept', hrun'⟩ := runFrom_setUp config propose hinspect'
  rw [← hfiles, ← hfiles'] at hsame
  rw [← hfiles] at hremovable
  rw [← hfiles'] at hremovable'
  rw [← hkept, ← hkept'] at htables
  have hfill := agreesAt_fillDirectory hrefresh hpropose hsame htables hremovable hremovable'
  -- where both fail they also clean up alike
  have hfinish : AgreesAt (Host.Alike (.all t.files.workingDirectory) Eq)
      (p.fillOrClean config propose) t t' := by
    refine hfill.tryCatch fun failure => ?_
    exact (agrees_clean (View.all_covers _ _)).bind fun _ => .throw _
  rw [hrun, hrun', ← hp]
  obtain ⟨houtcome, halike⟩ := hfinish
  exact ⟨houtcome, fun place => halike.files.node?_eq place trivial, halike.tables.symm⟩

/-! ## A sample -/

/-- The `sampleConfig`, to be made anew. -/
def refreshConfig : Config :=
  { sampleConfig with refresh := true }

/-- The name of the working directory of the sample. -/
def sampleIdentifier : String :=
  "yarn.1_20.1-v2"

/-- The `sampleHost`, on which the cache root is there. -/
def cleanHost : Host :=
  { sampleHost sampleIntermediary with
    files := (sampleHost sampleIntermediary).files.set ["cache"] .directory }

/-- The `cleanHost` with a working directory in which there are stale mappings. -/
def staleHost : Host :=
  { cleanHost with
    files := (cleanHost.files.set ["cache", sampleIdentifier] .directory).set
      ["cache", sampleIdentifier, "mappings.tiny"] (.file (.bytes sampleIntermediary) false) }

/-- A proposer that proposes nothing but what was there already. -/
def copyProposer : FieldNameProposer :=
  fun _ base out => do
    let content ← Action.query (·.read base)
    Action.write out content

theorem dependsOnInputs_copyProposer : copyProposer.DependsOnInputs :=
  fun _ _ _ _ _ _ hbase hout =>
    (Action.agrees_query fun _ _ h => h.read_eq hbase).bind fun content =>
      Action.agrees_write hout content

/-- The stale mappings of `staleHost` are forgotten. -/
theorem setUp_refresh_sample :
    ((setUp refreshConfig copyProposer).runFrom staleHost).1 =
        ((setUp refreshConfig copyProposer).runFrom cleanHost).1 ∧
      (∀ place, ((setUp refreshConfig copyProposer).runFrom staleHost).2.files.node? place =
        ((setUp refreshConfig copyProposer).runFrom cleanHost).2.files.node? place) ∧
      ((setUp refreshConfig copyProposer).runFrom staleHost).2.tables =
        ((setUp refreshConfig copyProposer).runFrom cleanHost).2.tables := by
  have hdirectory : (ofConfig refreshConfig .nested).workingDirectory = sampleDirectory := by
    decide +kernel
  have htarget : cleanHost.files.target sampleDirectory = ["cache", sampleIdentifier] := by
    decide +kernel
  have hclean : ((inspectJar refreshConfig.jar).runFrom cleanHost).1.toOption =
      some ⟨.nested, none⟩ := by decide +kernel
  have hstale : ((inspectJar refreshConfig.jar).runFrom staleHost).1.toOption =
      some ⟨.nested, none⟩ := by decide +kernel
  have hvacant : cleanHost.files.Vacant sampleDirectory := by decide +kernel
  have hremoved : (staleHost.files.removeDirectory sampleDirectory).2.Vacant sampleDirectory := by
    decide +kernel
  have hsame :
      cleanHost.files.AgreeIn (outside cleanHost.files sampleDirectory) staleHost.files := by
    refine .trans
      (.of_confined (FileStore.confined_set _ ["cache", sampleIdentifier] .directory) rfl ?_)
      (.of_confined (FileStore.confined_set _ _ _) rfl ?_)
    · rintro place hplace rfl
      exact hplace (htarget ▸ List.prefix_rfl)
    · rintro place hplace rfl
      exact hplace (htarget ▸ List.prefix_append _ ["mappings.tiny"])
  refine setUp_refresh (p := ofConfig refreshConfig .nested) rfl dependsOnInputs_copyProposer
    (toOption_eq_some_iff.1 hclean) (toOption_eq_some_iff.1 hstale) rfl ?_ ?_ rfl ?_ ?_
  · rw [hdirectory]
    decide +kernel
  · rwa [hdirectory]
  · rw [hdirectory]
    exact .inl hvacant.nodes
  · rw [hdirectory]
    refine .inr
      ⟨FileStore.find_of_isDirectory (by decide +kernel), by decide +kernel, hremoved.nodes⟩

end Provider

end MappingTables.Artifact
