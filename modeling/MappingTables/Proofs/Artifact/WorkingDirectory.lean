import MappingTables.Proofs.Artifact.Edits

/-!
# Setting up a working directory

A working directory is set up completely or not at all. What is there before a setup is taken for
complete if anything is there, so this has to hold of it beforehand as well.

* `WorkingDirectory.IsSettled`: whether a working directory is absent, empty or complete.
* `WorkingDirectory.IsSite`: whether a working directory can be made at a path.
* `WorkingDirectory.IsSite.clean`: a directory that is cleaned is empty.
* `Provider.fillDirectory_spec`, `Provider.setUp_spec`: what becomes of a settled working directory.
-/

namespace MappingTables.Artifact

open Step

namespace WorkingDirectory

variable {fs fs' : FileStore} {directory name : String} {host host' : Host} {names : List String}

/-! ## States of a working directory -/

/-- Whether nothing is where a working `directory` is to be. -/
def IsAbsent (fs : FileStore) (directory : String) : Prop :=
  ∀ below, fs.node? (fs.target directory ++ below) = none

/-- Whether a working `directory` is there, and nothing is in it. -/
structure IsEmpty (fs : FileStore) (directory : String) : Prop where
  there : fs.node? (fs.target directory) = some .directory
  nothing : ∀ name below, fs.node? (fs.target directory ++ name :: below) = none

/-- Whether a working `directory` holds the mappings of the jar, those that are used, and a jar of
which the only member has the content of the latter. -/
structure IsComplete (fs : FileStore) (directory : String) : Prop where
  there : fs.node? (fs.target directory) = some .directory
  base : fs.IsFile (fs.target directory ++ ["mappings-base.tiny"])
  mappings : ∃ content jar isExecutable isExecutable',
    fs.node? (fs.target directory ++ ["mappings.tiny"]) = some (.file content isExecutable) ∧
    fs.node? (fs.target directory ++ ["mappings.jar"]) = some (.file jar isExecutable') ∧
    jar.members? = some [(mappingsMember, content.toBytes)]

/-- Whether a working `directory` is absent, empty or complete. -/
def IsSettled (fs : FileStore) (directory : String) : Prop :=
  IsAbsent fs directory ∨ IsEmpty fs directory ∨ IsComplete fs directory

/-- A working directory that `IsSettled` with anything in it `IsComplete`. -/
theorem IsSettled.isComplete (h : IsSettled fs directory)
    (hnode : fs.node? (fs.target directory ++ [name]) ≠ none) : IsComplete fs directory := by
  rcases h with habsent | hempty | hcomplete
  · exact absurd (habsent [name]) hnode
  · exact absurd (hempty.nothing name []) hnode
  · exact hcomplete

/-- There is no file in the place of a working directory that `IsSettled`. -/
theorem IsSettled.not_isFile (h : IsSettled fs directory) : ¬fs.IsFile (fs.target directory) := by
  rcases h with habsent | hempty | hcomplete
  · have hnone := habsent []
    rw [List.append_nil] at hnone
    exact FileStore.not_isFile_of_none hnone
  · exact FileStore.not_isFile_of_directory hempty.there
  · exact FileStore.not_isFile_of_directory hcomplete.there

/-- A working directory still `IsComplete` if it stays there with the files that make it
complete. -/
theorem IsComplete.of_same (h : IsComplete fs directory)
    (htarget : fs'.target directory = fs.target directory)
    (hthere : fs'.node? (fs.target directory) = some .directory)
    (hfiles : ∀ name ∈ ["mappings-base.tiny", "mappings.tiny", "mappings.jar"],
      fs'.node? (fs.target directory ++ [name]) = fs.node? (fs.target directory ++ [name])) :
    IsComplete fs' directory := by
  obtain ⟨content, isExecutable, hbase⟩ := h.base
  refine ⟨by rw [htarget, hthere], ⟨content, isExecutable, ?_⟩, ?_⟩
  · rw [htarget, hfiles _ (by decide), hbase]
  · rw [htarget, hfiles "mappings.tiny" (by decide), hfiles "mappings.jar" (by decide)]
    exact h.mappings

theorem IsComplete.of_editsIn (h : IsComplete host.files directory)
    (hedits : Host.EditsIn directory names host host')
    (hnames : ∀ name ∈ ["mappings-base.tiny", "mappings.tiny", "mappings.jar"], name ∉ names) :
    IsComplete host'.files directory := by
  refine h.of_same (hedits.target_eq _) ?_ fun name hname => hedits.node?_eq (hnames name hname)
  rw [← hedits.target_eq]
  exact hedits.there h.there

/-- A working directory that is made where nothing was is empty. One that stays there with all that
is in it still `IsSettled`. -/
theorem IsSettled.of_same (h : IsSettled fs directory)
    (htarget : fs'.target directory = fs.target directory)
    (hthere : fs'.node? (fs.target directory) = some .directory)
    (hbelow : ∀ name below, fs'.node? (fs.target directory ++ name :: below) =
      fs.node? (fs.target directory ++ name :: below)) : IsSettled fs' directory := by
  rcases h with habsent | hempty | hcomplete
  · refine .inr (.inl ⟨by rw [htarget, hthere], fun name below => ?_⟩)
    rw [htarget, hbelow]
    exact habsent (name :: below)
  · refine .inr (.inl ⟨by rw [htarget, hthere], fun name below => ?_⟩)
    rw [htarget, hbelow]
    exact hempty.nothing name below
  · exact .inr (.inr (hcomplete.of_same htarget hthere fun name _ => hbelow name []))

/-- A working directory still `IsSettled` if nothing in its place changes. -/
theorem IsSettled.congr (h : IsSettled fs directory)
    (htarget : fs'.target directory = fs.target directory)
    (hnodes : ∀ below, fs'.node? (fs.target directory ++ below) =
      fs.node? (fs.target directory ++ below)) : IsSettled fs' directory := by
  have hthere := hnodes []
  rw [List.append_nil] at hthere
  rcases h with habsent | hempty | hcomplete
  · refine .inl fun below => ?_
    rw [htarget, hnodes]
    exact habsent below
  · exact IsSettled.of_same (.inr (.inl hempty)) htarget (hthere.trans hempty.there)
      fun name below => hnodes (name :: below)
  · exact IsSettled.of_same (.inr (.inr hcomplete)) htarget (hthere.trans hcomplete.there)
      fun name below => hnodes (name :: below)

/-! ## Cleaning -/

/-- The places on the way to a working `directory`, at which directories are made. -/
def wayTo (fs : FileStore) (directory : String) : List Location :=
  (Path.ancestors directory).map fs.target

/-- Whether a working `directory` can be made at a path: no file is there or on the way, and the
path leads neither through the directory itself nor to one that cannot be removed. -/
structure IsSite (fs : FileStore) (directory : String) : Prop where
  named : Path.IsNamed directory
  accessible : fs.Accessible directory
  way : ∀ place ∈ wayTo fs directory, ¬fs.target directory <+: place
  working : ¬fs.target directory <+: fs.workingDirectory
  not_isFile : ¬fs.IsFile (fs.target directory)

/-- Whether nothing changed outside of a working `directory`, but for directories that were made on
the way to it. -/
def SameElsewhere (directory : String) (fs fs' : FileStore) : Prop :=
  FileStore.Confined (fs.target directory <+: ·) (wayTo fs directory) fs fs'

theorem SameElsewhere.trans {fs'' : FileStore} (h : SameElsewhere directory fs fs')
    (h' : SameElsewhere directory fs' fs'') : SameElsewhere directory fs fs'' := by
  have hway : wayTo fs' directory = wayTo fs directory :=
    List.map_congr_left fun above _ => h.target_eq above
  rw [SameElsewhere, h.target_eq, hway] at h'
  exact FileStore.Confined.trans h h'

/-- What is written in a working directory leaves all the `SameElsewhere`. -/
theorem SameElsewhere.of_editsIn (h : Host.EditsIn directory names host host') :
    SameElsewhere directory host.files host'.files := by
  refine FileStore.Confined.mono h ?_ (List.nil_subset _)
  rintro place ⟨name, -, rfl⟩
  exact List.prefix_append _ _

namespace IsSite

variable (h : IsSite fs directory)

include h

theorem of_sameElsewhere (hsame : SameElsewhere directory fs fs')
    (hfile : ¬fs'.IsFile (fs.target directory)) : IsSite fs' directory where
  named := h.named
  accessible := h.accessible.of_confined hsame fun above habove =>
    h.way _ (List.mem_map_of_mem habove)
  way place hplace := by
    rw [hsame.target_eq]
    refine h.way place ?_
    rwa [wayTo, List.map_congr_left fun above _ => hsame.target_eq above] at hplace
  working := by
    rw [hsame.target_eq, hsame.working]
    exact h.working
  not_isFile := by
    rw [hsame.target_eq]
    exact hfile

/-- The way to a working directory does not lead through what is in it. -/
theorem target_ne {above : String} (habove : above ∈ Path.ancestors directory) (name : String)
    (below : List String) : fs.target above ≠ fs.target directory ++ name :: below :=
  fun heq => h.way _ (List.mem_map_of_mem habove) (heq ▸ List.prefix_append _ _)

/-- `createDirectories` can make the working directory at its site, and what is in it stays. -/
theorem createDirectories : (fs.createDirectories directory).1 = .ok () ∧
    (fs.createDirectories directory).2.find directory = .ok .directory ∧
    SameElsewhere directory fs (fs.createDirectories directory).2 ∧
    ∀ name below, (fs.createDirectories directory).2.node? (fs.target directory ++ name :: below) =
      fs.node? (fs.target directory ++ name :: below) := by
  obtain ⟨hok, hfind⟩ := h.accessible.createDirectories h.named h.not_isFile
  have hconfined := fs.confined_createDirectories directory
  refine ⟨hok, hfind, ⟨hconfined.working, hconfined.interrupts, fun place hplace => ?_⟩,
    fun name below => ?_⟩
  · rcases hconfined.outside place id with heq | ⟨hmem, hmade⟩
    · exact .inl heq
    · rcases List.mem_cons.1 hmem with rfl | hmem
      · exact absurd List.prefix_rfl hplace
      · exact .inr ⟨hmem, hmade⟩
  · refine hconfined.node?_eq id fun hmem => ?_
    rcases List.mem_cons.1 hmem with heq | hmem
    · simpa using congrArg List.length heq
    · exact h.way _ hmem (List.prefix_append _ _)

/-- What is found at a site is the working directory. -/
theorem find_eq_directory (hpresent : fs.isPresent directory = true) :
    fs.find directory = .ok .directory := by
  rw [FileStore.isPresent] at hpresent
  cases hfind : fs.find directory with
  | error e =>
    rw [hfind] at hpresent
    cases hpresent
  | ok node =>
    cases node with
    | directory => rfl
    | file content isExecutable =>
      exact absurd ⟨content, isExecutable, (FileStore.node?_of_find hfind).2⟩ h.not_isFile

end IsSite

/-- A working directory that is there is still found at its site after something was written in
it. -/
theorem IsSite.find_of_editsIn (h : IsSite host.files directory)
    (hfind : host.files.find directory = .ok .directory)
    (hedits : Host.EditsIn directory names host host') :
    IsSite host'.files directory ∧ host'.files.find directory = .ok .directory := by
  have hthere := hedits.there (FileStore.node?_of_find hfind).2
  have hsite : IsSite host'.files directory :=
    h.of_sameElsewhere (.of_editsIn hedits)
      (hedits.target_eq directory ▸ FileStore.not_isFile_of_directory hthere)
  refine ⟨hsite, (hsite.accessible.find_eq_directory_iff hsite.named).2 fun above habove => ?_⟩
  rcases List.mem_cons.1 habove with rfl | habove
  · exact hthere
  · have hway := (h.accessible.find_eq_directory_iff h.named).1 hfind above
      (List.mem_cons_of_mem _ habove)
    rw [hedits.target_eq]
    refine FileStore.Confined.directory hedits ?_ hway
    rintro ⟨name, -, heq⟩
    exact h.target_ne habove name [] heq

/-- `Provider.clean` cleans a site without failing. If the working directory was there it `IsEmpty`
afterwards. -/
theorem IsSite.clean (h : IsSite host.files directory) :
    ∃ host', (Provider.clean directory).runFrom host = (.ok (), host') ∧
      SameElsewhere directory host.files host'.files ∧
      host'.files.find directory = .ok .directory ∧
      (host.files.find directory = .ok .directory → IsEmpty host'.files directory) := by
  obtain ⟨host', hrun, hfiles, -⟩ := Provider.runFrom_clean directory host
  refine ⟨host', hrun, ?_⟩
  rw [hfiles]
  -- what is there is removed with everything below it before the directory is made
  by_cases hpresent : host.files.isPresent directory = true
  · have hfind := h.find_eq_directory hpresent
    obtain ⟨-, hremoved⟩ := h.accessible.removeDirectory h.named hfind h.working
      fun above habove => h.target_ne habove
    rw [if_pos hpresent]
    have hsame : SameElsewhere directory host.files (host.files.removeDirectory directory).2 :=
      (host.files.confined_removeDirectory directory).mono (fun _ => id) (List.nil_subset _)
    have hnone := hremoved []
    rw [List.append_nil] at hnone
    have hsite := h.of_sameElsewhere hsame (FileStore.not_isFile_of_none hnone)
    obtain ⟨-, hfind', hsame', hbelow⟩ := hsite.createDirectories
    refine ⟨hsame.trans hsame', hfind', fun _ => ⟨(FileStore.node?_of_find hfind').2, ?_⟩⟩
    intro name below
    rw [hsame'.target_eq, hbelow, hsame.target_eq]
    exact hremoved (name :: below)
  · rw [if_neg hpresent]
    obtain ⟨-, hfind, hsame, -⟩ := h.createDirectories
    refine ⟨hsame, hfind, fun hfound => absurd ?_ hpresent⟩
    rw [FileStore.isPresent, hfound]
    rfl

end WorkingDirectory

namespace Provider

open WorkingDirectory

variable {p p' : Provider} {config : Config} {propose : FieldNameProposer} {host host' : Host}
  {outcome : Except Failure Provider} {u : Unit}

/-! ## Filling a working directory -/

/-- The content of the jar is read from `mappingsPath`. A jar that is there already is removed
first. -/
theorem storeJar_eq_ok (h : p.storeJar.runFrom host = (.ok u, host')) :
    ∃ t content, Host.EditsIn p.workingDirectory ["mappings.jar"] host t ∧
      t.files.isPresent p.mappingsJar = false ∧ t.files.read p.mappingsPath = .ok content ∧
      (Jar.writeSingle p.mappingsJar mappingsMember content.toBytes).runFrom t =
        (.ok u, host') := by
  obtain ⟨t, hedits, hpresent, h⟩ : ∃ t, Host.EditsIn p.workingDirectory ["mappings.jar"] host t ∧
      t.files.isPresent p.mappingsJar = false ∧ (do
        let content ← within (.readFile p.mappingsPath) (Action.query (·.read p.mappingsPath))
        Jar.writeSingle p.mappingsJar mappingsMember content.toBytes : Action Unit).runFrom t =
          (.ok u, host') := by
    -- a jar from before is removed, and no other file is touched
    rw [storeJar, runFrom_bind, Action.runFrom_isPresent] at h
    dsimp only at h
    split at h
    · obtain ⟨_, t, hremove, h⟩ := runFrom_bind_eq_ok_iff.1 h
      have hremove := runFrom_within_eq_ok_iff.1 hremove
      refine ⟨t, (Action.respects_removeFile (by decide) (List.mem_singleton_self _)).of_eq hremove,
        ?_, h⟩
      obtain ⟨files, hfiles, rfl⟩ := Action.runFrom_change_eq_ok_iff.1 hremove
      exact FileStore.isPresent_of_removeFile hfiles
    · next hpresent => exact ⟨host, Std.Refl.refl host, Bool.eq_false_iff.2 hpresent, h⟩
  obtain ⟨content, t', hread, hwrite⟩ := runFrom_bind_eq_ok_iff.1 h
  rw [runFrom_within_eq_ok_iff, Action.runFrom_query_eq_ok_iff] at hread
  obtain ⟨hread, rfl⟩ := hread
  exact ⟨_, content, hedits, hpresent, hread, hwrite⟩

/-- `storeJar` makes the jar from the mappings that are used, so the working directory
`IsComplete`. -/
theorem isComplete_of_storeJar
    (hthere : host.files.node? (host.files.target p.workingDirectory) = some .directory)
    (hbase : host.files.IsFile (host.files.target p.workingDirectory ++ ["mappings-base.tiny"]))
    (h : p.storeJar.runFrom host = (.ok u, host')) :
    IsComplete host'.files p.workingDirectory := by
  have hedits := (p.respects_storeJar (List.mem_singleton_self "mappings.jar")).of_eq h
  obtain ⟨t, content, hremoved, hpresent, hread, hwrite⟩ := storeJar_eq_ok h
  have htarget : t.files.target p.workingDirectory = host.files.target p.workingDirectory :=
    hremoved.target_eq _
  obtain ⟨isExecutable, hmappings⟩ := FileStore.node?_of_read hread
  have hwrite := Action.runFrom_writeIn_eq_ok_iff.1 hwrite
  obtain ⟨isExecutable', hjar⟩ := Action.node?_of_runFrom_write (by decide) hwrite
  -- nothing is at the place of the jar, so it holds what is written
  obtain ⟨files, hfiles, -⟩ := Action.runFrom_write_eq_ok_iff.1 hwrite
  have hnone := FileStore.node?_of_write_of_not_isPresent hpresent hfiles
  rw [mappingsJar, file, FileStore.target_join (by decide)] at hnone
  rw [FileStore.received_of_none hnone] at hjar
  rw [mappingsPath, file, FileStore.target_join (by decide), htarget,
    hremoved.node?_eq (by decide)] at hmappings
  rw [htarget] at hjar
  obtain ⟨baseContent, baseExecutable, hbase⟩ := hbase
  have htarget' := hedits.target_eq p.workingDirectory
  refine ⟨?_, ⟨baseContent, baseExecutable, ?_⟩, content,
    .archive ((∅ : Archive).insert mappingsMember content.toBytes), isExecutable, isExecutable', ?_,
    ?_, rfl⟩
  · exact hedits.there hthere
  · rw [htarget', hedits.node?_eq (by decide), hbase]
  · rw [htarget', hedits.node?_eq (by decide), hmappings]
  · rw [htarget', hjar]

/-- `storeMappings` stores the mappings of the jar first, and leaves them alone afterwards. -/
theorem isFile_base_of_storeMappings (hpropose : propose.WritesOnly)
    (h : (p.storeMappings config propose).runFrom host = (.ok p', host')) :
    host'.files.IsFile (host.files.target p.workingDirectory ++ ["mappings-base.tiny"]) := by
  obtain ⟨s, t₁, t₂, jar, u, hsame, -, -, hextract, hextras, hmake⟩ := storeMappings_eq_ok h
  obtain ⟨content, isExecutable, hbase⟩ := Jar.isFile_of_runFrom_extract (by decide) hextract
  have htarget : t₁.files.target p.workingDirectory = s.files.target p.workingDirectory :=
    ((Jar.respects_extract (by decide) (List.mem_singleton_self _) jar _).of_eq
      hextract).target_eq _
  -- what is written afterwards has other names
  have hfirst := (p.respects_withExtras config (fun _ => id) jar).of_eq hextras
  have hsecond := (p'.respects_makeMappings config (List.mem_singleton_self _) hpropose).of_eq hmake
  rw [workingDirectory_of_withExtras hextras] at hsecond
  have hbefore : "mappings-base.tiny" ∉ ["mappings.tiny"] := by decide
  have hnode := hsecond.node?_eq hbefore
  rw [hfirst.target_eq, hfirst.node?_eq (by decide), htarget, hbase] at hnode
  exact ⟨content, isExecutable, hsame ▸ hnode⟩

/-- The mappings and the jar are made in a working directory that is there, by `takeMappings` and
`storeJar`. -/
def fillMappings (p : Provider) (config : Config) (propose : FieldNameProposer) :
    Action Provider := do
  let p ← p.takeMappings config propose
  if !(← Action.isPresent p.mappingsJar) || config.refresh then p.storeJar
  return p

theorem fillDirectory_eq (p : Provider) (config : Config) (propose : FieldNameProposer) :
    p.fillDirectory config propose =
      p.makeDirectory config >>= fun _ => p.fillMappings config propose :=
  rfl

/-- `fillMappings` changes nothing but files in the working directory, also if it fails. -/
theorem respects_fillMappings (p : Provider) (config : Config) (hpropose : propose.WritesOnly) :
    Respects (Host.EditsIn p.workingDirectory fileNames) (p.fillMappings config propose) := by
  have htake : Respects (Host.EditsIn p.workingDirectory fileNames)
      (p.takeMappings config propose) :=
    (p.respects_takeMappings config hpropose).mono fun _ _ h => h.mono (List.dropLast_subset _)
  refine htake.bind_of_ok fun p' s t hok => ?_
  rw [← workingDirectory_of_takeMappings hok]
  refine .bind (fun host => Std.Refl.refl host) fun present => ?_
  split
  · exact (p'.respects_storeJar (by decide)).bind fun _ => .pure _
  · exact .pure _

/-- A file is left alone only if it is `present` and not everything is to be made anew, by
`refresh`. -/
theorem not_remade_iff {present refresh : Bool} :
    ¬(!present || refresh) = true ↔ present = true ∧ refresh = false := by
  cases present <;> cases refresh <;> decide

/-- After `takeMappings` the mappings of the jar are there, also if they were there already. The jar
is there only if the working directory `IsComplete`. -/
theorem isComplete_of_takeMappings (hpropose : propose.WritesOnly)
    (hsettled : config.refresh = false → IsSettled host.files p.workingDirectory)
    (hpresent : host.files.IsFile (host.files.target p.workingDirectory ++ ["mappings.tiny"]) →
      host.files.isPresent p.mappingsPath = true)
    (h : (p.takeMappings config propose).runFrom host = (.ok p', host')) :
    host'.files.IsFile (host'.files.target p.workingDirectory ++ ["mappings-base.tiny"]) ∧
      (config.refresh = false → host'.files.isPresent p.mappingsJar = true →
        IsComplete host'.files p.workingDirectory) := by
  have hedits := (p.respects_takeMappings config hpropose).of_eq h
  have htarget := hedits.target_eq p.workingDirectory
  rw [takeMappings, runFrom_bind, Action.runFrom_isPresent] at h
  dsimp only at h
  split at h
  · next hmake =>
    refine ⟨htarget ▸ isFile_base_of_storeMappings hpropose h, fun hrefresh hjar => ?_⟩
    -- the jar was there, so the mappings were there, and would not have been made
    have hnode := FileStore.node?_ne_none_of_isPresent (by decide) hjar
    rw [htarget, hedits.node?_eq (by decide)] at hnode
    obtain ⟨content, -, isExecutable, -, hmappings, -⟩ :=
      ((hsettled hrefresh).isComplete hnode).mappings
    exact absurd hmake (not_remade_iff.2 ⟨hpresent ⟨content, isExecutable, hmappings⟩, hrefresh⟩)
  · next htrusted =>
    obtain ⟨hthere, hrefresh⟩ := not_remade_iff.1 htrusted
    obtain ⟨jar, t, hload, hextras⟩ := runFrom_bind_eq_ok_iff.1 h
    obtain rfl := (Jar.leavesState_load _).eq_of_ok hload
    have hnode := FileStore.node?_ne_none_of_isPresent (by decide) hthere
    have hcomplete := ((hsettled hrefresh).isComplete hnode).of_editsIn
      ((p.respects_withExtras config (fun _ => id) jar).of_eq hextras) (by decide)
    exact ⟨hcomplete.base, fun _ _ => hcomplete⟩

/-- `fillMappings` completes a working directory that `IsSettled`, if it succeeds. The jar is not
made again if it is there; then it was there with the mappings from which it was made. -/
theorem isComplete_of_fillMappings (hpropose : propose.WritesOnly)
    (hthere : host.files.node? (host.files.target p.workingDirectory) = some .directory)
    (hsettled : config.refresh = false → IsSettled host.files p.workingDirectory)
    (hpresent : host.files.IsFile (host.files.target p.workingDirectory ++ ["mappings.tiny"]) →
      host.files.isPresent p.mappingsPath = true)
    (h : (p.fillMappings config propose).runFrom host = (.ok p', host')) :
    IsComplete host'.files p.workingDirectory := by
  rw [fillMappings, runFrom_bind_eq_ok_iff] at h
  obtain ⟨p₁, t, htake, h⟩ := h
  have hdirectory := workingDirectory_of_takeMappings htake
  obtain ⟨hbase, hcomplete⟩ := isComplete_of_takeMappings hpropose hsettled hpresent htake
  have hthere' := ((p.respects_takeMappings config hpropose).of_eq htake).there hthere
  rw [mappingsJar, file, ← hdirectory] at hcomplete
  rw [← hdirectory] at hbase hthere' ⊢
  rw [runFrom_bind, Action.runFrom_isPresent] at h
  dsimp only at h
  -- the jar is stored anew unless it is there and may be trusted
  split at h
  · obtain ⟨_, t', hstore, h⟩ := runFrom_bind_eq_ok_iff.1 h
    cases h
    exact isComplete_of_storeJar hthere' hbase hstore
  · next htrusted =>
    obtain ⟨hjar, hrefresh⟩ := not_remade_iff.1 htrusted
    cases h
    exact hcomplete hrefresh hjar

/-- `makeDirectory` makes the working directory at its site, and what is in it stays unless
everything is to be made anew. -/
theorem makeDirectory_spec (p : Provider) (config : Config)
    (hsite : IsSite host.files p.workingDirectory) :
    ∃ host', (p.makeDirectory config).runFrom host = (.ok (), host') ∧
      SameElsewhere p.workingDirectory host.files host'.files ∧
      host'.files.find p.workingDirectory = .ok .directory ∧
      (config.refresh = false → ∀ name below,
        host'.files.node? (host.files.target p.workingDirectory ++ name :: below) =
          host.files.node? (host.files.target p.workingDirectory ++ name :: below)) := by
  -- on a site the directory can always be made
  have hcreate : ∀ {t : Host}, IsSite t.files p.workingDirectory →
      (within (.createWorkingDirectory p.workingDirectory)
        (Action.createDirectories p.workingDirectory)).runFrom t =
          (.ok (), { t with files := (t.files.createDirectories p.workingDirectory).2 }) := by
    intro t ht
    rw [runFrom_within_eq_ok_iff, Action.createDirectories, Action.changeAll, runFrom_bind,
      Action.runFrom_attempt]
    dsimp only
    rw [ht.createDirectories.1]
    rfl
  unfold makeDirectory
  -- a refresh starts from nothing, so only without one the contents have to be kept
  by_cases hrefresh : config.refresh = true
  · obtain ⟨t, hclean, hsame, hfind, -⟩ := hsite.clean
    have hthere := (FileStore.node?_of_find hfind).2
    rw [hsame.target_eq] at hthere
    have ht := hsite.of_sameElsewhere hsame (FileStore.not_isFile_of_directory hthere)
    obtain ⟨-, hfind', hsame', -⟩ := ht.createDirectories
    refine ⟨{ t with files := (t.files.createDirectories p.workingDirectory).2 }, ?_,
      hsame.trans hsame', hfind', fun hno => absurd hno (by simp [hrefresh])⟩
    rw [if_pos hrefresh, runFrom_bind, hclean]
    exact hcreate ht
  · obtain ⟨-, hfind, hsame, hbelow⟩ := hsite.createDirectories
    refine ⟨{ host with files := (host.files.createDirectories p.workingDirectory).2 }, ?_, hsame,
      hfind, fun _ => hbelow⟩
    rw [if_neg hrefresh]
    exact hcreate hsite

/-- After `fillDirectory` a working directory that was settled `IsComplete`, if that succeeds. It is
at its site in any case. -/
theorem fillDirectory_spec (hpropose : propose.WritesOnly)
    (hsite : IsSite host.files p.workingDirectory)
    (hsettled : IsSettled host.files p.workingDirectory)
    (hcheck : FileStore.checkPath p.mappingsPath = .ok ())
    (h : (p.fillDirectory config propose).runFrom host = (outcome, host')) :
    SameElsewhere p.workingDirectory host.files host'.files ∧
      IsSite host'.files p.workingDirectory ∧
      host'.files.find p.workingDirectory = .ok .directory ∧
      ∀ p', outcome = .ok p' → IsComplete host'.files p.workingDirectory := by
  obtain ⟨t, hmake, hsame, hfind, hbelow⟩ := makeDirectory_spec p config hsite
  rw [fillDirectory_eq, runFrom_bind, hmake] at h
  dsimp only at h
  have hthere := (FileStore.node?_of_find hfind).2
  have htarget := hsame.target_eq p.workingDirectory
  have ht : IsSite t.files p.workingDirectory :=
    hsite.of_sameElsewhere hsame (htarget ▸ FileStore.not_isFile_of_directory hthere)
  -- what fills the directory edits nothing outside of it
  have hedits := (p.respects_fillMappings config hpropose).of_eq h
  obtain ⟨hsite', hfind'⟩ := ht.find_of_editsIn hfind hedits
  refine ⟨hsame.trans (.of_editsIn hedits), hsite', hfind', ?_⟩
  rintro p' rfl
  refine isComplete_of_fillMappings hpropose hthere (fun hrefresh => ?_) (fun hfile => ?_) h
  · exact hsettled.of_same htarget (htarget ▸ hthere) (hbelow hrefresh)
  · exact FileStore.isPresent_of_isFile (by decide) ht.accessible ht.named hfind hcheck (by decide)
      hfile

/-! ## Setting up an artifact -/

/-- `checkGameVersion` notices another version of the game at most. -/
theorem runFrom_checkGameVersion (config : Config) (inspection : Inspection) (host : Host) :
    ∃ t, (checkGameVersion config inspection).runFrom host = (.ok (), t) ∧
      t.files = host.files := by
  unfold checkGameVersion
  split
  · split
    · exact ⟨_, rfl, rfl⟩
    · exact ⟨_, rfl, rfl⟩
  · exact ⟨_, rfl, rfl⟩

/-- `setUp` leaves a working directory that `IsComplete` if it succeeds, and one that `IsEmpty` if
it fails. -/
theorem setUp_spec {inspection : Inspection} (hpropose : propose.WritesOnly)
    (hinspect : ((inspectJar config.jar).runFrom host).1 = .ok inspection)
    (hp : p = ofConfig config inspection.dialect)
    (hsite : IsSite host.files p.workingDirectory)
    (hsettled : IsSettled host.files p.workingDirectory)
    (hcheck : FileStore.checkPath p.mappingsPath = .ok ())
    (h : (setUp config propose).runFrom host = (outcome, host')) :
    SameElsewhere p.workingDirectory host.files host'.files ∧
      (∀ p', outcome = .ok p' → p'.workingDirectory = p.workingDirectory ∧
        IsComplete host'.files p.workingDirectory) ∧
      ∀ failure, outcome = .error failure → IsEmpty host'.files p.workingDirectory := by
  have hinspected : (inspectJar config.jar).runFrom host = (.ok inspection, host) :=
    Prod.ext hinspect (leavesState_inspectJar _ host)
  obtain ⟨t, hcheckVersion, hfiles⟩ := runFrom_checkGameVersion config inspection host
  rw [setUp, runFrom_bind, hinspected] at h
  dsimp only at h
  rw [runFrom_bind, hcheckVersion] at h
  dsimp only at h
  rw [← hp, runFrom_tryCatch] at h
  rw [← hfiles] at hsite hsettled ⊢
  split at h
  · next p' t' hfill =>
    obtain ⟨hsame, -, -, hcomplete⟩ := fillDirectory_spec hpropose hsite hsettled hcheck hfill
    cases h
    refine ⟨hsame, ?_, fun _ hfailure => ?_⟩
    · rintro _ ⟨⟩
      exact ⟨workingDirectory_of_fillDirectory hfill, hcomplete p' rfl⟩
    · cases hfailure
  · next failure t' hfill =>
    obtain ⟨hsame, hsite', hfind, -⟩ := fillDirectory_spec hpropose hsite hsettled hcheck hfill
    -- whatever was written is removed again
    obtain ⟨host'', hclean, hsame', -, hempty⟩ := hsite'.clean
    rw [runFrom_bind, hclean] at h
    cases h
    refine ⟨hsame.trans hsame', fun _ hok => ?_, fun _ _ => hempty hfind⟩
    cases hok

end Provider

end MappingTables.Artifact
