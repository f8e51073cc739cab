import MappingTables.Proofs.Artifact.KeptTable
import MappingTables.Proofs.Artifact.Refresh
import MappingTables.Proofs.Files.Repetition

/-!
# Steps of a setup that are repeated

Extras that are taken again from the same jar are those that are there. A working directory that is
made again is left alone or emptied.

* `WorkingDirectory.LeadsElsewhere`: whether a path does not lead into a working directory.
* `WorkingDirectory.IsBlank`: whether a working directory is absent or empty.
* `Provider.withExtras_again`, `Provider.makeDirectory_again`: the steps, when they are repeated.
-/

namespace MappingTables.Artifact

open Step

namespace WorkingDirectory

variable {fs fs' : FileStore} {directory name path : String} {host host' : Host}
    {names : List String}

/-- All places but those under some `names` in a `directory`. -/
def apart (fs : FileStore) (directory : String) (names : List String) : View :=
  ⟨fs.workingDirectory, fun place => ∀ name ∈ names, place ≠ fs.target directory ++ [name]⟩

/-- Whether a `path` does not lead into a `directory`. -/
def LeadsElsewhere (fs : FileStore) (directory path : String) : Prop :=
  (View.around fs.workingDirectory (fs.target directory)).Covers path

instance (fs : FileStore) (directory path : String) :
    Decidable (LeadsElsewhere fs directory path) :=
  inferInstanceAs (Decidable (∀ place ∈ FileStore.trail fs.workingDirectory path,
    ¬(fs.target directory <+: place ∧ place ≠ fs.target directory)))

theorem LeadsElsewhere.covers_apart (h : LeadsElsewhere fs directory path) (names : List String) :
    (apart fs directory names).Covers path := by
  rintro place hplace name - rfl
  exact h _ hplace ⟨List.prefix_append _ _, by simp⟩

/-- The way to a file in a directory does not lead through the other files there, under the `names`
that are kept `apart`. -/
theorem LeadsElsewhere.covers_apart_join (h : LeadsElsewhere fs directory directory)
    (hname : Path.IsName name) (hnames : name ∉ names) :
    (apart fs directory names).Covers (Path.join directory name) := by
  intro place hplace
  rcases (FileStore.mem_trail_join_iff hname).1 hplace with hplace | rfl
  · exact h.covers_apart names place hplace
  · rintro other hother heq
    rw [List.append_cancel_left_eq, List.singleton_inj] at heq
    exact hnames (heq ▸ hother)

theorem LeadsElsewhere.of_agreeIn {v : View} (h : LeadsElsewhere fs directory path)
    (hagree : fs.AgreeIn v fs') : LeadsElsewhere fs' directory path := by
  rw [LeadsElsewhere, hagree.working, hagree.target_eq]
  exact h

theorem apart_eq {v : View} (hagree : fs.AgreeIn v fs') (directory : String) (names : List String) :
    apart fs' directory names = apart fs directory names := by
  rw [apart, apart, hagree.working, hagree.target_eq]

/-- What is written in a directory is written under its `names` only. -/
theorem agreeIn_of_editsIn (h : Host.EditsIn directory names host host') :
    host.files.AgreeIn (apart host.files directory names) host'.files := by
  refine .of_confined h rfl ?_
  rintro place hplace ⟨name, hname, heq⟩
  exact hplace name hname heq

/-- A file outside of a directory in which nothing was is not found by a path that leads into it, as
long as only files are added there: the path `LeadsElsewhere`. -/
theorem leadsElsewhere_of_find {node : FileNode}
    (hnothing :
      ∀ name below, host.files.node? (host.files.target directory ++ name :: below) = none)
    (hedits : Host.EditsIn directory names host host') (hfiles : Host.NoNewDirectories host host')
    (houtside : ¬host.files.target directory <+: host.files.target path)
    (hfind : host'.files.find path = .ok node) : LeadsElsewhere host.files directory path := by
  have hagree := agreeIn_of_editsIn hedits
  rintro place hplace ⟨⟨below, rfl⟩, hne⟩
  cases below with
  | nil => exact hne (List.append_nil _)
  | cons name below =>
    have hdirectory := FileStore.node?_of_find_of_ne hfind _ (hagree.working ▸ hplace) fun heq =>
      houtside (hagree.target_eq path ▸ heq ▸ List.prefix_append _ _)
    have hthere := hfiles _ hdirectory
    rw [hnothing] at hthere
    cases hthere

/-- Whether a working `directory` is absent or empty, and its path does not lead into it. -/
structure IsBlank (fs : FileStore) (directory : String) : Prop where
  blank : IsAbsent fs directory ∨ IsEmpty fs directory
  way : LeadsElsewhere fs directory directory

theorem IsBlank.nothing (h : IsBlank fs directory) (name : String) (below : List String) :
    fs.node? (fs.target directory ++ name :: below) = none := by
  rcases h.blank with habsent | hempty
  · exact habsent (name :: below)
  · exact hempty.nothing name below

/-- Whether nothing changed but for what was added at places on the way to a `directory`. -/
def GrowsOnWay (directory : String) (fs fs' : FileStore) : Prop :=
  ∃ places, fs.Grows places fs' ∧
    ∀ place ∈ places, place ∈ FileStore.trail fs.workingDirectory directory

theorem growsOnWay_of_agreeIn (directory : String) (h : fs.AgreeIn (.all fs.workingDirectory) fs') :
    GrowsOnWay directory fs fs' :=
  ⟨[], FileStore.grows_of_agreeIn h, nofun⟩

/-- `createDirectories` makes directories on the way to a directory. -/
theorem GrowsOnWay.createDirectories (h : GrowsOnWay directory fs fs') :
    GrowsOnWay directory fs (fs'.createDirectories directory).2 := by
  obtain ⟨places, hgrows, hplaces⟩ := h
  refine ⟨_, hgrows.trans (fs'.grows_createDirectories directory), fun place hplace => ?_⟩
  rcases List.mem_append.1 hplace with hplace | hplace
  · exact hplaces place hplace
  · exact hgrows.working ▸ FileStore.mem_trail_of_mem_targets hplace

/-- Nothing is in a working directory that `IsBlank` after directories were made on the way to
it. -/
theorem GrowsOnWay.nothing (h : GrowsOnWay directory fs fs') (hblank : IsBlank fs directory)
    (name : String) (below : List String) :
    fs'.node? (fs.target directory ++ name :: below) = none := by
  obtain ⟨places, hgrows, hplaces⟩ := h
  rw [hgrows.elsewhere _ fun hmem => ?_, hblank.nothing]
  exact hblank.way _ (hplaces _ hmem) ⟨List.prefix_append _ _, by simp⟩

/-- A working directory that `IsBlank` and is there is as it was after it was removed and made
again. -/
theorem IsBlank.agreeIn_remade (h : IsBlank fs directory)
    (hpresent : fs.isPresent directory = true) :
    fs.AgreeIn (.all fs.workingDirectory)
      ((fs.removeDirectory directory).2.createDirectories directory).2 := by
  have hfind : fs.find directory = .ok .directory := by
    cases hfound : fs.find directory with
    | error e =>
      rw [FileStore.isPresent, hfound] at hpresent
      cases hpresent
    | ok node =>
      have hnode := (FileStore.node?_of_find hfound).2
      rcases h.blank with habsent | hempty
      · have hnone := habsent []
        rw [List.append_nil, hnode] at hnone
        cases hnone
      · rw [hempty.there] at hnode
        rw [Option.some.inj hnode]
  exact (FileStore.agreeIn_emptied_of_nothing h.nothing).trans
    (FileStore.createDirectories_removeDirectory hfind h.way).2

end WorkingDirectory

namespace Provider

open WorkingDirectory

variable {v : View} {config : Config} {propose : FieldNameProposer} {p p' : Provider}
  {host host' : Host} {jar : OpenArchive} {u : Unit}

/-! ## Taking extras again -/

section Extras

variable {definitions metadata : ByteArray} {unpick : UnpickMetadata}

/-- What `storeUnpick` stored under names that were free is kept. -/
theorem keeps_of_storeUnpick
    (hway : LeadsElsewhere host.files p.workingDirectory p.workingDirectory)
    (hfree : host.files.Free p.workingDirectory ["mappings.unpick", "unpick.json"])
    (h : (p.storeUnpick config definitions metadata).runFrom host = (.ok unpick, host')) :
    host'.files.Keeps p.definitionsPath (.bytes definitions) ∧
      host'.files.Keeps p.unpickPath (.bytes metadata) ∧
      within (.inMember unpickMember config.jar) (UnpickMetadata.ofBytes metadata) =
        .ok unpick := by
  rw [storeUnpick, runFrom_bind_eq_ok_iff] at h
  obtain ⟨_, t, hdefinitions, h⟩ := h
  rw [runFrom_bind_eq_ok_iff] at h
  obtain ⟨_, t', hmetadata, h⟩ := h
  rw [runFrom_ofExcept, Prod.mk.injEq] at h
  obtain ⟨hunpick, rfl⟩ := h
  rw [runFrom_within_eq_ok_iff] at hdefinitions hmetadata
  have hfirst : Host.EditsIn p.workingDirectory ["mappings.unpick"] host t :=
    (Action.respects_write (by decide) (List.mem_singleton_self _) _).of_eq hdefinitions
  have hsecond : Host.EditsIn p.workingDirectory ["unpick.json"] t t' :=
    (Action.respects_write (by decide) (List.mem_singleton_self _) _).of_eq hmetadata
  obtain ⟨files, hfiles, rfl⟩ := Action.runFrom_write_eq_ok_iff.1 hdefinitions
  obtain ⟨files', hfiles', rfl⟩ := Action.runFrom_write_eq_ok_iff.1 hmetadata
  -- nothing is where they are written, also after the first one was
  have hnone : host.files.node? (host.files.target p.definitionsPath) = none := by
    rw [definitionsPath, file, FileStore.target_join (by decide)]
    exact hfree _ (by decide)
  have hnone' : files.node? (files.target p.unpickPath) = none := by
    rw [unpickPath, file, FileStore.target_join (by decide), hfirst.target_eq]
    exact (hfirst.node?_eq (by decide)).trans (hfree _ (by decide))
  refine ⟨?_, FileStore.keeps_of_write hnone' hfiles', hunpick⟩
  -- the second file is written elsewhere
  have hway' := hway.of_agreeIn (agreeIn_of_editsIn hfirst)
  exact (FileStore.keeps_of_write hnone hfiles).of_agreeIn (agreeIn_of_editsIn hsecond)
    (hway'.covers_apart_join (by decide) (by decide))

/-- `Action.write` changes nothing if the file `Keeps` what is written. -/
theorem runFrom_write_of_keeps {path : String} {content : FileContent}
    (h : host.files.Keeps path content) :
    ∃ host', (Action.write path content).runFrom host = (.ok (), host') ∧
      host.files.AgreeIn (.all host.files.workingDirectory) host'.files ∧
      host'.tables = host.tables := by
  obtain ⟨files, hwrite, hsame⟩ := h.exists_write
  exact ⟨_, Action.runFrom_write_eq_ok_iff.2 ⟨files, hwrite, rfl⟩, hsame, rfl⟩

/-- `storeUnpick` changes nothing if the files keep what is stored. -/
theorem runFrom_storeUnpick_of_keeps
    (hdefinitions : host.files.Keeps p.definitionsPath (.bytes definitions))
    (hmetadata : host.files.Keeps p.unpickPath (.bytes metadata))
    (hunpick : within (.inMember unpickMember config.jar) (UnpickMetadata.ofBytes metadata) =
      .ok unpick) :
    ∃ host', (p.storeUnpick config definitions metadata).runFrom host = (.ok unpick, host') ∧
      host.files.AgreeIn (.all host.files.workingDirectory) host'.files ∧
      host'.tables = host.tables := by
  obtain ⟨t, hwrite, hsame, htables⟩ := runFrom_write_of_keeps hdefinitions
  obtain ⟨t', hwrite', hsame', htables'⟩ :=
    runFrom_write_of_keeps (hmetadata.of_agreeIn hsame (View.all_covers _ _))
  rw [hsame.working] at hsame'
  refine ⟨t', ?_, hsame.trans hsame', htables'.trans htables⟩
  rw [storeUnpick, runFrom_bind, runFrom_within, hwrite, within_ok]
  dsimp only
  rw [runFrom_bind, runFrom_within, hwrite', within_ok]
  dsimp only
  rw [runFrom_ofExcept, hunpick]

/-- `takeUnpick` takes the same definitions again from the same jar, and changes nothing. -/
theorem takeUnpick_again {later : Host} {unpick : Option UnpickMetadata}
    (hway : LeadsElsewhere host.files p.workingDirectory p.workingDirectory)
    (hfree : host.files.Free p.workingDirectory ["mappings.unpick", "unpick.json"])
    (hdefinitionsPath : v.Covers p.definitionsPath) (hunpickPath : v.Covers p.unpickPath)
    (hjar :
      Host.Alike ⟨host.files.workingDirectory, (· = jar.location)⟩ (fun _ _ => True) host later)
    (hagree : host'.files.AgreeIn v later.files)
    (h : (p.takeUnpick config jar).runFrom host = (.ok unpick, host')) :
    ∃ later', (p.takeUnpick config jar).runFrom later = (.ok unpick, later') ∧
      later.files.AgreeIn (.all later.files.workingDirectory) later'.files ∧
      later'.tables = later.tables := by
  -- members are read from the jar, which nothing changes
  have hread : ∀ {member bytes?}, (Jar.read? jar member).runFrom host = (.ok bytes?, host) →
      (Jar.read? jar member).runFrom later = (.ok bytes?, later) := by
    intro member bytes? hmember
    obtain ⟨t, ht, -⟩ := (Jar.agrees_read? rfl member _ _ hjar).of_ok hmember
    rwa [(Jar.leavesState_read? jar member).eq_of_ok ht] at ht
  rw [takeUnpick, runFrom_bind_eq_ok_iff] at h
  obtain ⟨definitions, t, hdefinitions, h⟩ := h
  obtain rfl := (Jar.leavesState_read? _ _).eq_of_ok hdefinitions
  rw [runFrom_bind_eq_ok_iff] at h
  obtain ⟨metadata, t', hmetadata, h⟩ := h
  obtain rfl := (Jar.leavesState_read? _ _).eq_of_ok hmetadata
  rw [takeUnpick, runFrom_bind, hread hdefinitions]
  dsimp only
  rw [runFrom_bind, hread hmetadata]
  dsimp only
  split at h
  · next definitions metadata =>
    obtain ⟨unpick, hstored, rfl⟩ := runFrom_map_eq_ok_iff.1 h
    obtain ⟨hfirst, hsecond, hunpick⟩ := keeps_of_storeUnpick hway hfree hstored
    obtain ⟨later', hagain, hsame, htables⟩ := runFrom_storeUnpick_of_keeps
      (hfirst.of_agreeIn hagree hdefinitionsPath) (hsecond.of_agreeIn hagree hunpickPath) hunpick
    exact ⟨later', runFrom_map_eq_ok_iff.2 ⟨unpick, hagain, rfl⟩, hsame, htables⟩
  · rw [runFrom_pure, Prod.mk.injEq] at h
    exact ⟨later, by rw [runFrom_pure, h.1], .refl rfl, rfl⟩

/-- `withExtras` takes the same extras again from the same jar, and changes nothing. -/
theorem withExtras_again {later : Host}
    (hway : LeadsElsewhere host.files p.workingDirectory p.workingDirectory)
    (hfree : host.files.Free p.workingDirectory ["mappings.unpick", "unpick.json"])
    (hjar : (apart host.files p.workingDirectory fileNames).Sees jar.location)
    (hdefinitionsPath : v.Covers p.definitionsPath) (hunpickPath : v.Covers p.unpickPath)
    (hsees : v.Sees jar.location)
    (hagree : host'.files.AgreeIn v later.files)
    (h : (p.withExtras config jar).runFrom host = (.ok p', host')) :
    ∃ later', (p.withExtras config jar).runFrom later = (.ok p', later') ∧
      later.files.AgreeIn (.all later.files.workingDirectory) later'.files ∧
      later'.tables = later.tables := by
  have hedits : Host.EditsIn p.workingDirectory fileNames host host' :=
    (p.respects_withExtras config (by decide) jar).of_eq h
  -- the jar is the same throughout
  have hbefore : host.files.AgreeIn ⟨host.files.workingDirectory, (· = jar.location)⟩ host'.files :=
    (agreeIn_of_editsIn hedits).mono rfl fun place hplace => hplace ▸ hjar
  have hafter : host'.files.AgreeIn ⟨host.files.workingDirectory, (· = jar.location)⟩ later.files :=
    hagree.mono (hbefore.right.symm.trans hagree.left) fun place hplace => hplace ▸ hsees
  rw [withExtras, runFrom_bind_eq_ok_iff] at h
  obtain ⟨unpick, t, hunpick, h⟩ := h
  rw [runFrom_bind_eq_ok_iff] at h
  obtain ⟨signatures, t', hsignatures, h⟩ := h
  obtain rfl := (leavesState_takeSignatures _ _).eq_of_ok hsignatures
  rw [runFrom_pure, Prod.mk.injEq] at h
  obtain ⟨hp', rfl⟩ := h
  obtain ⟨later', hagain, hsame, htables⟩ :=
    takeUnpick_again hway hfree hdefinitionsPath hunpickPath ⟨hbefore.trans hafter, trivial⟩ hagree
      hunpick
  have hlast : Host.Alike ⟨host.files.workingDirectory, (· = jar.location)⟩ (fun _ _ => True)
      t' later' :=
    ⟨hafter.trans (hsame.mono hafter.right.symm fun _ _ => trivial), trivial⟩
  have hagrees : AgreesAt _ (takeSignatures config jar) t' later' :=
    agrees_takeSignatures rfl _ _ hlast
  obtain ⟨later'', hsignatures', -⟩ := hagrees.of_ok hsignatures
  obtain rfl := (leavesState_takeSignatures _ _).eq_of_ok hsignatures'
  refine ⟨later'', ?_, hsame, htables⟩
  rw [withExtras, runFrom_bind, hagain]
  dsimp only
  rw [runFrom_bind, hsignatures']
  dsimp only
  rw [runFrom_pure, hp']

end Extras

/-! ## The working directory -/

/-- `makeDirectory` leaves a working directory alone that is there, or empties it if everything is
to be made anew. -/
theorem makeDirectory_again (p : Provider) (config : Config)
    (hfind : host.files.find p.workingDirectory = .ok .directory)
    (hway : LeadsElsewhere host.files p.workingDirectory p.workingDirectory) :
    ∃ host', (p.makeDirectory config).runFrom host = (.ok (), host') ∧
      host'.tables = host.tables ∧
      (if config.refresh then host.files.emptied (host.files.target p.workingDirectory)
        else host.files).AgreeIn (.all host.files.workingDirectory) host'.files := by
  -- a directory that is there does not have to be made
  have hcreate : ∀ t : Host, t.files.find p.workingDirectory = .ok .directory →
      (within (.createWorkingDirectory p.workingDirectory)
        (Action.createDirectories p.workingDirectory)).runFrom t = (.ok (), t) := by
    intro t ht
    rw [runFrom_within_eq_ok_iff, Action.createDirectories, Action.changeAll, runFrom_bind,
      Action.runFrom_attempt, FileStore.createDirectories_of_find ht]
    rfl
  rw [makeDirectory]
  by_cases hrefresh : config.refresh = true
  · rw [if_pos hrefresh, if_pos hrefresh]
    obtain ⟨t, hclean, hfiles, htables⟩ := runFrom_clean p.workingDirectory host
    rw [if_pos (FileStore.isPresent_of_find hfind)] at hfiles
    obtain ⟨-, hemptied⟩ := FileStore.createDirectories_removeDirectory hfind hway
    rw [← hfiles] at hemptied
    have hthere : t.files.find p.workingDirectory = .ok .directory := by
      rw [hemptied.find_eq (View.all_covers _ _),
        (FileStore.agreeIn_emptied _ _).find_eq hway, hfind]
    refine ⟨t, ?_, htables, hemptied⟩
    rw [runFrom_bind, hclean]
    exact hcreate t hthere
  · rw [if_neg hrefresh, if_neg hrefresh]
    exact ⟨host, hcreate host hfind, rfl, .refl rfl⟩

/-- Where nothing was, `makeDirectory` makes directories on the way to the working directory at
most. -/
theorem growsOnWay_of_makeDirectory (hblank : IsBlank host.files p.workingDirectory)
    (h : (p.makeDirectory config).runFrom host = (.ok u, host')) :
    GrowsOnWay p.workingDirectory host.files host'.files ∧ host'.tables = host.tables := by
  obtain ⟨t, hgrows, htables, hrun⟩ : ∃ t : Host,
      GrowsOnWay p.workingDirectory host.files t.files ∧ t.tables = host.tables ∧
      (within (.createWorkingDirectory p.workingDirectory)
        (Action.createDirectories p.workingDirectory)).runFrom t = (.ok u, host') := by
    -- a blank directory that is cleaned is as it was, or is made on the way to it
    have hrefl : GrowsOnWay p.workingDirectory host.files host.files :=
      growsOnWay_of_agreeIn _ (.refl rfl)
    rw [makeDirectory] at h
    split at h
    · obtain ⟨t, hclean, hfiles, htables⟩ := runFrom_clean p.workingDirectory host
      rw [runFrom_bind, hclean] at h
      refine ⟨t, ?_, htables, h⟩
      rw [hfiles]
      split
      · next hpresent => exact growsOnWay_of_agreeIn _ (hblank.agreeIn_remade hpresent)
      · exact hrefl.createDirectories
    · exact ⟨host, hrefl, rfl, h⟩
  obtain rfl := Action.runFrom_createDirectories_eq_ok (runFrom_within_eq_ok_iff.1 hrun)
  exact ⟨hgrows.createDirectories, htables⟩

/-- `storeJar` makes the jar from the mappings, and both are there then. -/
theorem isPresent_of_storeJar
    (hway : LeadsElsewhere host.files p.workingDirectory p.workingDirectory)
    (h : p.storeJar.runFrom host = (.ok u, host')) :
    host'.files.isPresent p.mappingsPath = true ∧ host'.files.isPresent p.mappingsJar = true := by
  have hpresent : ∀ {fs : FileStore} {path content}, fs.read path = .ok content →
      fs.isPresent path = true := by
    intro fs path content hread
    obtain ⟨node, hfind, -⟩ := bind_eq_ok_iff.1 hread
    exact FileStore.isPresent_of_find hfind
  obtain ⟨t, content, hremoved, -, hread, hwrite⟩ := storeJar_eq_ok h
  have hwrite := Action.runFrom_writeIn_eq_ok_iff.1 hwrite
  -- storing the jar edits no file but the jar, so the mappings are still there
  have hedits : Host.EditsIn p.workingDirectory ["mappings.jar"] t host' :=
    (Action.respects_write (by decide) (List.mem_singleton_self _) _).of_eq hwrite
  have hway' := hway.of_agreeIn (agreeIn_of_editsIn hremoved)
  have hpath : (apart t.files p.workingDirectory ["mappings.jar"]).Covers p.mappingsPath :=
    hway'.covers_apart_join (by decide) (by decide)
  have hmappings := (agreeIn_of_editsIn hedits).read_eq hpath
  obtain ⟨files, hfiles, rfl⟩ := Action.runFrom_write_eq_ok_iff.1 hwrite
  exact ⟨hpresent (hmappings.trans hread), hpresent (FileStore.read_of_write hfiles)⟩

end Provider

end MappingTables.Artifact
