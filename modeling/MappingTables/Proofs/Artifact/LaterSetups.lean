import MappingTables.Proofs.Artifact.KeptTable
import MappingTables.Proofs.Artifact.Refresh
import MappingTables.Proofs.Artifact.Repetition

/-!
# Setups that come later

A setup that finds mappings in the working directory trusts them, and one that makes everything anew
builds them from the same input files. So all setups after the first one give the same.

* `Provider.IsBuilt`: what the first setup leads to.
* `Provider.IsBuilt.rebuild_again`, `Provider.IsBuilt.fillMappings_again`: what is made anew and
  what is trusted.
* `Provider.Later`: the hosts to which later setups lead.
* `Provider.setUp_again`: all later setups succeed, and give the same as the first one.
-/

namespace MappingTables.Artifact.Provider

open Step WorkingDirectory

variable {config : Config} {propose : FieldNameProposer} {p p' : Provider} {host host' : Host}
  {jar : OpenArchive}

/-! ## What a first setup leads to -/

/-- What a setup looks at: the working `directory` with all that is in it, and the ways to it and to
the input files. -/
def scope (config : Config) (directory : String) (fs : FileStore) : View :=
  ⟨fs.workingDirectory, fun place => fs.target directory <+: place ∨
    ∃ path ∈ directory :: config.inputs, place ∈ FileStore.trail fs.workingDirectory path⟩

theorem scope_covers {directory path : String} {fs : FileStore}
    (h : path ∈ directory :: config.inputs) : (scope config directory fs).Covers path :=
  fun _ hplace => .inr ⟨path, h, hplace⟩

theorem isSeen_scope (config : Config) (directory : String) (fs : FileStore) :
    IsSeen (scope config directory fs) directory := by
  refine ⟨scope_covers List.mem_cons_self, fun name hname place hplace => ?_⟩
  rcases (FileStore.mem_trail_join_iff hname).1 hplace with hplace | rfl
  · exact scope_covers List.mem_cons_self place hplace
  · exact .inl (List.prefix_append _ _)

theorem scope_eq {v : View} {fs fs' : FileStore} {directory : String} (h : fs.AgreeIn v fs') :
    scope config directory fs' = scope config directory fs := by
  rw [scope, scope, h.working, h.target_eq]

/-- Whether everything was made in a working directory in which nothing was, with a service that was
empty: `host` before that and `built` after it. -/
structure IsBuilt (config : Config) (propose : FieldNameProposer) (p p' : Provider)
    (host built : Host) : Prop where
  find : host.files.find p.workingDirectory = .ok .directory
  nothing : ∀ name below,
    host.files.node? (host.files.target p.workingDirectory ++ name :: below) = none
  way : LeadsElsewhere host.files p.workingDirectory p.workingDirectory
  jar : LeadsElsewhere host.files p.workingDirectory config.jar
  intermediary : ¬host.files.target p.workingDirectory <+: host.files.target config.intermediary
  fresh : host.tables = {}
  run : (p.rebuild config propose).runFrom host = (.ok p', built)

/-- `fillDirectory` makes everything in a working directory that `IsBlank`. -/
theorem exists_isBuilt_of_fillDirectory (hwrites : propose.WritesOnly)
    (hblank : IsBlank host.files p.workingDirectory)
    (hjar : LeadsElsewhere host.files p.workingDirectory config.jar)
    (hintermediary :
      ¬host.files.target p.workingDirectory <+: host.files.target config.intermediary)
    (hfresh : host.tables = {}) (hne : p.workingDirectory ≠ "")
    (h : (p.fillDirectory config propose).runFrom host = (.ok p', host')) :
    ∃ t, GrowsOnWay p.workingDirectory host.files t.files ∧
      IsBuilt config propose p p' t host' := by
  rw [fillDirectory_eq, runFrom_bind_eq_ok_iff] at h
  obtain ⟨_, t, hmake, hfill⟩ := h
  obtain ⟨hgrows, htables⟩ := growsOnWay_of_makeDirectory hblank hmake
  have hnothing := hgrows.nothing hblank
  have ⟨places, hadded, _⟩ := hgrows
  rw [← hadded.target_eq] at hnothing
  have hrun : (p.rebuild config propose).runFrom t = (.ok p', host') := by
    rw [← runFrom_fillMappings_of_free hwrites fun name _ => hnothing name []]
    exact hfill
  -- something was written in the working directory, so it is found
  obtain ⟨t₁, _, hstored, -⟩ := rebuild_eq_ok hrun
  obtain ⟨s, s₁, s₂, jar, u, hfiles, -, -, hextract, -, -⟩ := storeMappings_eq_ok hstored
  obtain ⟨bytes, hwrite⟩ := Jar.exists_write_of_runFrom_extract hextract
  obtain ⟨files, hwrite, -⟩ := Action.runFrom_write_eq_ok_iff.1 hwrite
  have hfind : t.files.find p.workingDirectory = .ok .directory := by
    rw [← hfiles]
    exact FileStore.find_of_write_join (by decide) hne hwrite
  have hway : ∀ path, LeadsElsewhere host.files p.workingDirectory path →
      LeadsElsewhere t.files p.workingDirectory path := by
    intro path hpath
    rwa [LeadsElsewhere, hadded.target_eq, hadded.working]
  refine ⟨t, hgrows, hfind, hnothing, hway _ hblank.way, hway _ hjar, ?_,
    htables.trans hfresh, hrun⟩
  rwa [hadded.target_eq, hadded.target_eq]

/-- Hosts that are `Alike` in the `scope` of a setup, and keep current tables. -/
abbrev Same (config : Config) (p : Provider) (host : Host) : Host → Host → Prop :=
  Host.Alike (scope config p.workingDirectory host.files)
    (BothCurrent host.files config.intermediary)

section Built

variable {later : Host} (hbuilt : IsBuilt config propose p p' host host')
  (hwrites : propose.WritesOnly)

include hbuilt

/-- `rebuild` makes everything again alike. -/
theorem IsBuilt.rebuild_again (hdepends : propose.DependsOnInputs) {t : Host}
    (h : Same config p host host t) :
    ∃ t', (p.rebuild config propose).runFrom t = (.ok p', t') ∧ Same config p host host' t' := by
  have hinputs : ∀ path ∈ config.inputs,
      (scope config p.workingDirectory host.files).Covers path := fun path hpath =>
    scope_covers (List.mem_cons_of_mem _ hpath)
  have hintermediary : config.intermediary ∈ config.inputs := by simp [Config.inputs]
  have hseen := isSeen_scope config p.workingDirectory host.files
  refine (agreesAt_rebuild hseen hinputs hdepends h
    fun s s' hedits hfiles hs => ?_).of_ok hbuilt.run
  refine agreesAt_mergeWithIntermediary_of_current (hseen.2 _ (by decide)) (hinputs _ hintermediary)
    hs fun content hread => ?_
  -- the intermediary mappings are not in the working directory
  obtain ⟨node, hfind, -⟩ := bind_eq_ok_iff.1 hread
  have hway := leadsElsewhere_of_find hbuilt.nothing hedits hfiles hbuilt.intermediary hfind
  exact ((agreeIn_of_editsIn hedits).read_eq (hway.covers_apart _)).symm.trans hread

/-- What was built is like what would be built again: `Same` as itself. -/
theorem IsBuilt.alike_self (hdepends : propose.DependsOnInputs) :
    Same config p host host' host' := by
  -- on the very same host the same is built, and a run has one result
  have hself : Same config p host host host := by
    refine ⟨.refl rfl, fun content _ => ?_⟩
    rw [hbuilt.fresh]
    exact ⟨isCurrent_empty _ _, isCurrent_empty _ _⟩
  obtain ⟨t, hrun, hsame⟩ := hbuilt.rebuild_again hdepends hself
  rw [hbuilt.run, Prod.mk.injEq] at hrun
  exact hrun.2 ▸ hsame

include hwrites

/-- What was made is in files of the working directory only, `apart` from which nothing changed. -/
theorem IsBuilt.agreeIn :
    host.files.AgreeIn (apart host.files p.workingDirectory fileNames) host'.files :=
  agreeIn_of_editsIn ((p.respects_rebuild config hwrites).of_eq hbuilt.run)

theorem IsBuilt.find_later (h : Same config p host host' later) :
    later.files.find p.workingDirectory = .ok .directory := by
  rw [h.files.find_eq (isSeen_scope _ _ _).1,
    (hbuilt.agreeIn hwrites).find_eq (hbuilt.way.covers_apart _), hbuilt.find]

theorem IsBuilt.way_later (h : Same config p host host' later) :
    LeadsElsewhere later.files p.workingDirectory p.workingDirectory :=
  (hbuilt.way.of_agreeIn (hbuilt.agreeIn hwrites)).of_agreeIn h.files

/-- The files along the way to the jar are as they were before. -/
theorem IsBuilt.agreeIn_along (h : Same config p host host' later) :
    host.files.AgreeIn (.along host.files.workingDirectory config.jar) later.files :=
  ((hbuilt.agreeIn hwrites).along (hbuilt.jar.covers_apart _)).trans
    (h.files.along (scope_covers (List.mem_cons_of_mem _ List.mem_cons_self)))

/-- `Jar.load` opens the jar again as it was before. -/
theorem IsBuilt.load_again (h : Same config p host host' later) {t : Host}
    (hfiles : t.files = host.files) (hload : (Jar.load config.jar).runFrom t = (.ok jar, t)) :
    (Jar.load config.jar).runFrom later = (.ok jar, later) := by
  have hsame := hbuilt.agreeIn_along hwrites h
  rw [← hfiles] at hsame
  have halike : Host.Alike (.along t.files.workingDirectory config.jar) (fun _ _ => True) t later :=
    ⟨hsame, trivial⟩
  obtain ⟨later', hagain, -⟩ := (Jar.agrees_load (View.along_covers _ _) _ _ halike).of_ok hload
  rwa [(Jar.leavesState_load _).eq_of_ok hagain] at hagain

/-- The files that are trusted are present. -/
theorem IsBuilt.isPresent_later (h : Same config p host host' later) :
    later.files.isPresent p.mappingsPath = true ∧ later.files.isPresent p.mappingsJar = true := by
  obtain ⟨t, u, hstored, hjar⟩ := rebuild_eq_ok hbuilt.run
  have hedits := (p.respects_storeMappings config hwrites).of_eq hstored
  have hway : LeadsElsewhere t.files p'.workingDirectory p'.workingDirectory := by
    rw [workingDirectory_of_storeMappings hstored]
    exact hbuilt.way.of_agreeIn (agreeIn_of_editsIn hedits)
  obtain ⟨hmappings, hjarPresent⟩ := isPresent_of_storeJar hway hjar
  rw [mappingsPath, file, workingDirectory_of_storeMappings hstored] at hmappings
  rw [mappingsJar, file, workingDirectory_of_storeMappings hstored] at hjarPresent
  have hseen := isSeen_scope config p.workingDirectory host.files
  rw [mappingsPath, file, h.files.isPresent_eq (hseen.2 _ (by decide)), mappingsJar, file,
    h.files.isPresent_eq (hseen.2 _ (by decide))]
  exact ⟨hmappings, hjarPresent⟩

/-- The first setup took the extras after it had stored the mappings of the jar only. What it stored
later is `apart` from them. -/
theorem IsBuilt.exists_extras :
    ∃ (t t₁ t₂ : Host) (jar : OpenArchive), t.files = host.files ∧
      (Jar.load config.jar).runFrom t = (.ok jar, t) ∧
      host.files.AgreeIn (apart host.files p.workingDirectory ["mappings-base.tiny"]) t₁.files ∧
      t₁.files.Free p.workingDirectory ["mappings.unpick", "unpick.json"] ∧
      (p.withExtras config jar).runFrom t₁ = (.ok p', t₂) ∧
      t₂.files.AgreeIn (apart host.files p.workingDirectory ["mappings.tiny", "mappings.jar"])
        host'.files := by
  obtain ⟨t₃, _, hstored, hjarStored⟩ := rebuild_eq_ok hbuilt.run
  obtain ⟨t, t₁, t₂, jar, u, hfiles, -, hload, hextract, hextras, hmake⟩ :=
    storeMappings_eq_ok hstored
  have hbefore : Host.EditsIn p.workingDirectory ["mappings-base.tiny"] t t₁ :=
    (Jar.respects_extract (by decide) (by decide) jar _).of_eq hextract
  have hextrasEdits : Host.EditsIn p.workingDirectory ["mappings.unpick", "unpick.json"] t₁ t₂ :=
    (p.respects_withExtras config (List.Subset.refl _) jar).of_eq hextras
  have hafter : Host.EditsIn p.workingDirectory ["mappings.tiny", "mappings.jar"] t₂ host' := by
    rw [← workingDirectory_of_withExtras hextras]
    exact trans_of _ ((p'.respects_makeMappings config (by decide) hwrites).of_eq hmake)
      ((p'.respects_storeJar (by decide)).of_eq hjarStored)
  have hagree₁ := agreeIn_of_editsIn hbefore
  have hagree₂ := agreeIn_of_editsIn hafter
  -- the working directory is at the same place throughout
  rw [apart_eq (agreeIn_of_editsIn hextrasEdits), apart_eq hagree₁, hfiles] at hagree₂
  rw [hfiles] at hagree₁
  have hfree : t₁.files.Free p.workingDirectory ["mappings.unpick", "unpick.json"] := by
    intro name hname
    have hother : name ∉ ["mappings-base.tiny"] := by
      revert name
      decide
    rw [hbefore.target_eq, hbefore.node?_eq hother, hfiles]
    exact hbuilt.nothing name []
  exact ⟨t, t₁, t₂, jar, hfiles, hload, hagree₁, hfree, hextras, hagree₂⟩

/-- `withExtras` takes the same extras again from the same jar. -/
theorem IsBuilt.extras_again (h : Same config p host host' later) :
    ∃ jar later', (Jar.load config.jar).runFrom later = (.ok jar, later) ∧
      (p.withExtras config jar).runFrom later = (.ok p', later') ∧
      later.files.AgreeIn (.all later.files.workingDirectory) later'.files ∧
      later'.tables = later.tables := by
  obtain ⟨t, t₁, t₂, jar, hfiles, hload, hbefore, hfree, hextras, hafter⟩ :=
    hbuilt.exists_extras hwrites
  have hstart : t.files.workingDirectory = host.files.workingDirectory := by rw [hfiles]
  have hseen := isSeen_scope config p.workingDirectory host.files
  -- the jar is outside of the working directory
  have hjarApart : ∀ names, (apart host.files p.workingDirectory names).Sees jar.location :=
    fun names => Jar.sees_location (hbuilt.jar.covers_apart names) hstart hload
  have hjarScope : (scope config p.workingDirectory host.files).Sees jar.location :=
    Jar.sees_location (scope_covers (List.mem_cons_of_mem _ List.mem_cons_self)) hstart hload
  -- nothing was written afterwards to the files of the extras, neither by the first setup nor by
  -- later ones
  let v : View := ⟨host.files.workingDirectory, fun place =>
    (scope config p.workingDirectory host.files).Sees place ∧
      (apart host.files p.workingDirectory ["mappings.tiny", "mappings.jar"]).Sees place⟩
  have hcovers : ∀ {name}, Path.IsName name → name ∉ ["mappings.tiny", "mappings.jar"] →
      v.Covers (Path.join p.workingDirectory name) := fun hname hother place hplace =>
    ⟨hseen.2 _ hname place hplace, hbuilt.way.covers_apart_join hname hother place hplace⟩
  have hkept : t₂.files.AgreeIn v host'.files := hafter.mono rfl fun _ => And.right
  have hagree : t₂.files.AgreeIn v later.files := hkept.trans (h.files.mono rfl fun _ => And.left)
  have hjar : (apart t₁.files p.workingDirectory fileNames).Sees jar.location := by
    rw [apart_eq hbefore]
    exact hjarApart fileNames
  obtain ⟨later', hagain, hsame, htables⟩ := withExtras_again (hbuilt.way.of_agreeIn hbefore)
    hfree hjar (hcovers (by decide) (by decide)) (hcovers (by decide) (by decide))
    ⟨hjarScope, hjarApart _⟩ hagree hextras
  exact ⟨jar, later', hbuilt.load_again hwrites h hfiles hload, hagain, hsame, htables⟩

/-- `fillMappings` trusts what is in the working directory already, which is as it is to be. -/
theorem IsBuilt.fillMappings_again (h : Same config p host host' later) :
    ∃ later', (p.fillMappings { config with refresh := false } propose).runFrom later =
        (.ok p', later') ∧
      later.files.AgreeIn (.all later.files.workingDirectory) later'.files ∧
      later'.tables = later.tables := by
  obtain ⟨hmappings, hjarPresent⟩ := hbuilt.isPresent_later hwrites h
  obtain ⟨jar, later', hload, hextras, hsame, htables⟩ := hbuilt.extras_again hwrites h
  refine ⟨later', ?_, hsame, htables⟩
  -- the mappings are there, so only what goes beside them is taken from the jar again
  have htake : (p.takeMappings { config with refresh := false } propose).runFrom later =
      (.ok p', later') := by
    rw [takeMappings, runFrom_bind, Action.runFrom_isPresent, hmappings]
    dsimp only
    rw [if_neg (by simp), runFrom_bind, hload]
    exact hextras
  have hpresent : later'.files.isPresent p'.mappingsJar = true := by
    rw [mappingsJar, file, workingDirectory_of_withExtras hextras,
      hsame.isPresent_eq (View.all_covers _ _)]
    exact hjarPresent
  rw [fillMappings, runFrom_bind, htake]
  dsimp only
  rw [runFrom_bind, Action.runFrom_isPresent, hpresent]
  rfl

/-- Without all that is in the working directory, everything is as it was before that was made, in
the `scope` of the setup. -/
theorem IsBuilt.agreeIn_emptied (h : Same config p host host' later) :
    host.files.AgreeIn (scope config p.workingDirectory host.files)
      (later.files.emptied (host.files.target p.workingDirectory)) := by
  -- what is in the directory is gone, as it was not there before; elsewhere nothing was written
  refine ⟨rfl, h.files.right, h.files.interrupts.trans (hbuilt.agreeIn hwrites).interrupts,
    fun place hplace => ?_⟩
  by_cases hinside : host.files.target p.workingDirectory <+: place ∧
      place ≠ host.files.target p.workingDirectory
  · obtain ⟨⟨below, rfl⟩, hne⟩ := hinside
    cases below with
    | nil => exact absurd (List.append_nil _) hne
    | cons name below =>
      have hnone := hbuilt.nothing name below
      rw [hnone, FileStore.node?_emptied fun habove => ?_]
      rw [h.files.right] at habove
      rw [FileStore.node?_of_above habove] at hnone
      cases hnone
  · have hapart : (apart host.files p.workingDirectory fileNames).Sees place := by
      rintro name - rfl
      exact hinside ⟨List.prefix_append _ _, by simp⟩
    rw [(later.files.agreeIn_emptied _).node?_eq place hinside, h.files.node?_eq place hplace,
      (hbuilt.agreeIn hwrites).node?_eq place hapart]

/-- `fillDirectory` fills the working directory again alike, whether what is there is trusted or
everything is made anew. -/
theorem IsBuilt.fillDirectory_again (hdepends : propose.DependsOnInputs)
    (h : Same config p host host' later) (refresh : Bool) :
    ∃ later', (p.fillDirectory { config with refresh } propose).runFrom later = (.ok p', later') ∧
      Same config p host host' later' := by
  obtain ⟨t, hmake, htables, hfiles⟩ := makeDirectory_again p { config with refresh }
    (hbuilt.find_later hwrites h) (hbuilt.way_later hwrites h)
  rw [fillDirectory_eq, runFrom_bind, hmake]
  dsimp only
  cases refresh with
  | false =>
    -- nothing has happened yet, and what was built is trusted
    have ht : Same config p host host' t :=
      ⟨h.files.trans (hfiles.mono h.files.right.symm fun _ _ => trivial), htables ▸ h.tables⟩
    obtain ⟨later', hrun, hsame, hkept⟩ := hbuilt.fillMappings_again hwrites ht
    exact ⟨later', hrun, ht.files.trans (hsame.mono ht.files.right.symm fun _ _ => trivial),
      hkept ▸ ht.tables⟩
  | true =>
    -- everything is as before the first setup, but for the table that is kept
    have htarget :
        later.files.target p.workingDirectory = host.files.target p.workingDirectory := by
      rw [h.files.target_eq, (hbuilt.agreeIn hwrites).target_eq]
    rw [if_pos rfl, htarget] at hfiles
    have ht : Same config p host host t := by
      refine ⟨(hbuilt.agreeIn_emptied hwrites h).trans
        (hfiles.mono h.files.right.symm fun _ _ => trivial), fun content hread => ?_⟩
      rw [hbuilt.fresh, htables]
      exact ⟨isCurrent_empty _ _, (h.tables content hread).2⟩
    obtain ⟨later', hrun, hsame⟩ := hbuilt.rebuild_again hdepends ht
    exact ⟨later', (runFrom_fillMappings_of_refresh rfl).trans hrun, hsame⟩

end Built

/-! ## Setting up again -/

/-- `inspectJar` gives the same result again. -/
theorem IsBuilt.inspectJar_again {start later : Host} {inspection : Inspection}
    (hbuilt : IsBuilt config propose p p' start host') (hwrites : propose.WritesOnly)
    (hgrows : GrowsOnWay p.workingDirectory host.files start.files)
    (h : Same config p start host' later)
    (hinspect : (inspectJar config.jar).runFrom host = (.ok inspection, host)) :
    ((inspectJar config.jar).runFrom later).1 = .ok inspection := by
  obtain ⟨archive, t, hload, -⟩ := runFrom_bind_eq_ok_iff.1 hinspect
  obtain ⟨⟨isExecutable, hfind⟩, -⟩ := Jar.runFrom_load_eq_ok_iff.1 hload
  obtain ⟨places, hgrows, -⟩ := hgrows
  -- the way to a jar that was found is not changed by directories that are made
  have hlater := hbuilt.agreeIn_along hwrites h
  rw [hgrows.working] at hlater
  have halike :
      Host.Alike (.along host.files.workingDirectory config.jar) (fun _ _ => True) host later :=
    ⟨(hgrows.agreeIn hfind).trans hlater, trivial⟩
  rw [(agrees_inspectJar (View.along_covers _ _) _ _ halike).1, hinspect]

/-- `setUp` gives an artifact again that `IsBuilt`, whether everything is made anew or not. -/
theorem IsBuilt.setUp_later {later : Host} {inspection : Inspection}
    (hbuilt : IsBuilt config propose (ofConfig config inspection.dialect) p host host')
    (hwrites : propose.WritesOnly) (hdepends : propose.DependsOnInputs)
    (h : Same config (ofConfig config inspection.dialect) host host' later)
    (hinspect : ((inspectJar config.jar).runFrom later).1 = .ok inspection) (refresh : Bool) :
    ∃ later', (setUp { config with refresh } propose).runFrom later = (.ok p, later') ∧
      Same config (ofConfig config inspection.dialect) host host' later' := by
  obtain ⟨t, hfiles, htables, hrun⟩ :=
    runFrom_setUp { config with refresh } propose hinspect
  have ht : Same config (ofConfig config inspection.dialect) host host' t :=
    ⟨hfiles ▸ h.files, htables ▸ h.tables⟩
  obtain ⟨later', hfill, hsame⟩ := hbuilt.fillDirectory_again hwrites hdepends ht refresh
  exact ⟨later', hrun.trans (runFrom_tryCatch_of_ok hfill), hsame⟩

/-- The hosts to which later setups lead, each of which may make everything anew. Between two setups
anything may change but what is at the places of the view `v`, and the tables. -/
inductive Later (config : Config) (propose : FieldNameProposer) (v : View) (first : Host) :
    Host → Prop
  | first : Later config propose v first first
  | change {host host' : Host} (before : Later config propose v first host)
      (files : host.files.AgreeIn v host'.files) (tables : host'.tables = host.tables) :
      Later config propose v first host'
  | setUp {host : Host} (before : Later config propose v first host) (refresh : Bool) :
      Later config propose v first ((setUp { config with refresh } propose).runFrom host).2

section SetUp

variable {start first later : Host}

/-- After later setups, all is the `Same` as after the first one. -/
theorem IsBuilt.same_of_later {inspection : Inspection}
    (hbuilt : IsBuilt config propose (ofConfig config inspection.dialect) p start first)
    (hwrites : propose.WritesOnly) (hdepends : propose.DependsOnInputs)
    (hinspect : ∀ later, Same config (ofConfig config inspection.dialect) start first later →
      ((inspectJar config.jar).runFrom later).1 = .ok inspection)
    (h : Later config propose
      (scope config (ofConfig config inspection.dialect).workingDirectory start.files)
        first later) :
    Same config (ofConfig config inspection.dialect) start first later := by
  -- `Same` is what each setup keeps, and what is not changed in between
  induction h with
  | first => exact hbuilt.alike_self hdepends
  | change before files tables ih => exact ⟨ih.files.trans files, tables ▸ ih.tables⟩
  | setUp before refresh ih =>
    obtain ⟨later', hrun, hsame⟩ := hbuilt.setUp_later hwrites hdepends ih (hinspect _ ih) refresh
    rwa [hrun]

theorem workingDirectory_ofConfig_ne (config : Config) (dialect : Format.Dialect) :
    (ofConfig config dialect).workingDirectory ≠ "" := by
  have hidentifier : (ofConfig config dialect).identifier ≠ "" := identifier_ne_empty _ _ _ _
  rw [workingDirectory_ofConfig]
  exact Path.join_ne_empty hidentifier

/-- Once `setUp` has set up an artifact in a working directory that `IsBlank`, with a service that
was empty, it succeeds again after any setups that come `Later`. Whether they trust what is there or
make everything anew, in whatever order, they give the same provider and leave the working directory
as it was, as long as nothing else changes in the `scope`: there, on the way there, and on the ways
to the input files, which are not in the working directory. -/
theorem setUp_again (hwrites : propose.WritesOnly) (hdepends : propose.DependsOnInputs)
    (hblank : IsBlank host.files p.workingDirectory)
    (hinputs : ∀ path ∈ config.inputs,
      ¬host.files.target p.workingDirectory <+: host.files.target path)
    (hfresh : host.tables = {}) (h : (setUp config propose).runFrom host = (.ok p, first))
    (hlater : Later config propose (scope config p.workingDirectory first.files) first later)
    (refresh : Bool) :
    ∃ later', (setUp { config with refresh } propose).runFrom later = (.ok p, later') ∧
      ∀ below, later'.files.node? (first.files.target p.workingDirectory ++ below) =
        first.files.node? (first.files.target p.workingDirectory ++ below) := by
  obtain ⟨inspection, t, hinspect, hfiles, htables, hfill⟩ := setUp_eq_ok h
  rw [workingDirectory_of_fillDirectory hfill] at hblank hinputs hlater ⊢
  have hintermediary := hinputs config.intermediary (by simp [Config.inputs])
  -- the jar is found, so its path does not lead into a directory in which nothing is
  obtain ⟨archive, s, hload, -⟩ := runFrom_bind_eq_ok_iff.1 hinspect
  obtain ⟨⟨isExecutable, hfind⟩, -⟩ := Jar.runFrom_load_eq_ok_iff.1 hload
  have hunchanged :
      Host.EditsIn (ofConfig config inspection.dialect).workingDirectory [] host host :=
    Std.Refl.refl host
  have hjar := leadsElsewhere_of_find hblank.nothing hunchanged (Std.Refl.refl host)
    (hinputs config.jar List.mem_cons_self) hfind
  rw [← hfiles] at hblank hjar hintermediary
  rw [← htables] at hfresh
  obtain ⟨start, hgrows, hbuilt⟩ :=
    exists_isBuilt_of_fillDirectory hwrites hblank hjar hintermediary
    hfresh (workingDirectory_ofConfig_ne _ _) hfill
  rw [hfiles] at hgrows
  have hagain : ∀ later, Same config (ofConfig config inspection.dialect) start first later →
      ((inspectJar config.jar).runFrom later).1 = .ok inspection := fun later hlater =>
    hbuilt.inspectJar_again hwrites hgrows hlater hinspect
  have hbefore := hbuilt.agreeIn hwrites
  rw [scope_eq hbefore] at hlater
  have hsame := hbuilt.same_of_later hwrites hdepends hagain hlater
  obtain ⟨later', hrun, hsame'⟩ :=
    hbuilt.setUp_later hwrites hdepends hsame (hagain _ hsame) refresh
  refine ⟨later', hrun, fun below => hsame'.files.node?_eq _ (.inl ?_)⟩
  rw [hbefore.target_eq]
  exact List.prefix_append _ _

end SetUp

/-! ## Samples -/

/-- An artifact named `yarn` with plain mappings, for which the game is in one jar. -/
def plainConfig : Config :=
  { sampleConfig with game := .merged "game.jar" }

/-- The plain mappings in the jar of the artifact. -/
def plainBase : ByteArray :=
  "v1\tintermediary\tnamed\nCLASS\tclass_1\tMain\n".toUTF8

/-- A host with nothing but the jar of the artifact and that of the game. -/
def plainHost : Host where
  files := {
    workingDirectory := []
    nodes := .ofList [
      (["game.jar"], .file (.bytes .empty) false),
      (["yarn.jar"], .file (.archive ((∅ : Archive).insert mappingsMember plainBase)) false)] }

theorem writesOnly_copyProposer : copyProposer.WritesOnly := by
  intro gameJar base out host
  have hrefl : Std.Refl fun host host' : Host =>
      FileStore.Confined (· = host.files.target out) [] host.files host'.files :=
    ⟨fun host => .refl _ _ host.files⟩
  have hquery := Action.leavesState_query (·.read base) host
  rw [copyProposer, runFrom_bind]
  generalize (Action.query (·.read base)).runFrom host = result at hquery
  obtain ⟨outcome, t⟩ := result
  obtain rfl : t = host := hquery
  cases outcome with
  | error failure => exact .refl _ _ t.files
  | ok content =>
    have hwrite : Respects (fun host host' : Host =>
        FileStore.Confined (· = host.files.target out) [] host.files host'.files)
          (Action.write out content) :=
      Action.respects_changeAll fun host => host.files.confined_write out content
    exact hwrite t

/-- What the first `setUp` of `plainConfig` comes to. -/
theorem exists_setUp_plain : ∃ p first,
    (setUp plainConfig copyProposer).runFrom plainHost = (.ok p, first) ∧
    plainHost.files.Vacant p.workingDirectory ∧
    LeadsElsewhere plainHost.files p.workingDirectory p.workingDirectory ∧
    ∀ path ∈ plainConfig.inputs,
      ¬plainHost.files.target p.workingDirectory <+: plainHost.files.target path := by
  have hsetUp : ((setUp plainConfig copyProposer).runFrom plainHost).1.toOption.any (fun p =>
      decide (plainHost.files.Vacant p.workingDirectory ∧
        LeadsElsewhere plainHost.files p.workingDirectory p.workingDirectory ∧
        ∀ path ∈ plainConfig.inputs,
          ¬plainHost.files.target p.workingDirectory <+: plainHost.files.target path)) = true := by
    decide +kernel
  generalize (setUp plainConfig copyProposer).runFrom plainHost = run at hsetUp ⊢
  obtain ⟨outcome, first⟩ := run
  obtain ⟨p, hp, hall⟩ := (Option.any_eq_true ..).1 hsetUp
  exact ⟨p, first, congrArg (·, first) (toOption_eq_some_iff.1 hp), of_decide_eq_true hall⟩

/-- The sample is set up once more and then made anew, which changes nothing. -/
theorem setUp_again_sample : ∃ p first last,
    (setUp plainConfig copyProposer).runFrom plainHost = (.ok p, first) ∧
      (setUp { plainConfig with refresh := true } copyProposer).runFrom
        ((setUp { plainConfig with refresh := false } copyProposer).runFrom first).2 =
          (.ok p, last) ∧
      ∀ below, last.files.node? (first.files.target p.workingDirectory ++ below) =
        first.files.node? (first.files.target p.workingDirectory ++ below) := by
  obtain ⟨p, first, hrun, hvacant, hway, hinputs⟩ := exists_setUp_plain
  obtain ⟨last, hlast, hsame⟩ := setUp_again writesOnly_copyProposer dependsOnInputs_copyProposer
    ⟨.inl hvacant.nodes, hway⟩ hinputs rfl hrun (.setUp .first false) true
  exact ⟨p, first, last, hrun, hlast, hsame⟩

/-- The same artifact, with a `version` that makes the path of the working directory lead through
it. -/
def loopConfig : Config :=
  { plainConfig with version := "1/mappings.jar/.." }

/-- A working directory whose path leads through it, like that of `loopConfig`, gets a directory in
the place of its `mappingsJar`. A setup that trusts what is there takes it for the jar, but it
cannot be removed like a file when everything is made anew: `LeadsElsewhere` is needed for
`setUp_again`. -/
theorem setUp_again_loop : ∃ p first failure last,
    copyProposer.WritesOnly ∧ copyProposer.DependsOnInputs ∧
      IsAbsent plainHost.files p.workingDirectory ∧
      (∀ path ∈ loopConfig.inputs,
        ¬plainHost.files.target p.workingDirectory <+: plainHost.files.target path) ∧
      plainHost.tables = {} ∧
      (setUp loopConfig copyProposer).runFrom plainHost = (.ok p, first) ∧
      (setUp { loopConfig with refresh := true } copyProposer).runFrom first =
        (.error failure, last) := by
  have hruns : (match (setUp loopConfig copyProposer).runFrom plainHost with
      | (.ok p, first) =>
        ((setUp { loopConfig with refresh := true } copyProposer).runFrom
          first).1.toOption.isNone &&
          plainHost.files.target p.workingDirectory == ["cache", "yarn.1_20.1"]
      | (.error _, _) => false) = true := by decide +kernel
  -- the working directory is the one to which a shorter path leads
  have hvacant : plainHost.files.Vacant "cache/yarn.1_20.1" := by decide +kernel
  have htarget : plainHost.files.target "cache/yarn.1_20.1" = ["cache", "yarn.1_20.1"] := by
    decide +kernel
  generalize (setUp loopConfig copyProposer).runFrom plainHost = run at hruns ⊢
  obtain ⟨outcome, first⟩ := run
  cases outcome with
  | error failure => cases hruns
  | ok p =>
    simp only [Bool.and_eq_true, beq_iff_eq] at hruns
    obtain ⟨hfails, hdirectory⟩ := hruns
    generalize hlast : (setUp { loopConfig with refresh := true } copyProposer).runFrom first = run
      at hfails
    obtain ⟨outcome, last⟩ := run
    cases outcome with
    | ok p' => cases hfails
    | error failure =>
      refine ⟨p, first, failure, last, writesOnly_copyProposer,
        dependsOnInputs_copyProposer, ?_, ?_, rfl, rfl, hlast⟩
      · intro below
        rw [hdirectory, ← htarget]
        exact hvacant.nodes below
      · rw [hdirectory]
        decide +kernel

end MappingTables.Artifact.Provider
