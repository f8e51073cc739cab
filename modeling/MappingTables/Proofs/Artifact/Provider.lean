import MappingTables.Artifact.Provider
import MappingTables.Proofs.Artifact.MergedTable
import MappingTables.Proofs.Files.Reading

/-!
# The stored table of an artifact

Setting up an artifact writes files to its working directory, one after the other. What was written
is still there in the end, and what was there before is read throughout.

* `Provider.Adds`: what a step of the setup does to the host.
* `Provider.Stores`: a host with the table of an artifact in its file.
* `Provider.stores_of_setUp`: a setup that succeeds where nothing was stores the table that is made.
-/

namespace MappingTables.Artifact.Provider

open Format Step

variable {config : Config} {p p' : Provider} {host host' host'' : Host} {u : Unit}

/-! ## Adding files -/

/-- The names in a working directory, in the order in which the files are written. -/
def fileNames : List String :=
  ["mappings-base.tiny", "mappings.unpick", "unpick.json", "mappings.tiny", "mappings.jar"]

/-- Whether nothing changed but files that were added, and some `names` in a `directory` are still
free. -/
structure Adds (directory : String) (names : List String) (host host' : Host) : Prop where
  grows : ∃ places, host.files.Grows places host'.files
  tables : host'.tables = host.tables
  free : host'.files.Free directory names

section Adds

variable {directory name : String} {names names' : List String}

/-- Of two steps after each other, the names that are free after the second one count in `Adds`. -/
theorem Adds.trans (h : Adds directory names host host') (h' : Adds directory names' host' host'') :
    Adds directory names' host host'' := by
  obtain ⟨places, hgrows⟩ := h.grows
  obtain ⟨places', hgrows'⟩ := h'.grows
  exact ⟨⟨_, hgrows.trans hgrows'⟩, h'.tables.trans h.tables, h'.free⟩

theorem Adds.read {path : String} {content : FileContent} (h : Adds directory names host host')
    (hread : host.files.read path = .ok content) : host'.files.read path = .ok content := by
  obtain ⟨places, hgrows⟩ := h.grows
  exact hgrows.read hread

/-- Nothing is added, and `Adds` asks no more names to be free than are. -/
theorem Adds.of_free (h : host.files.Free directory names) (hsub : names' ⊆ names) :
    Adds directory names' host host :=
  ⟨⟨[], .refl [] _⟩, rfl, fun name hname => h name (hsub hname)⟩

/-- A file is written under a `name` that is free. -/
theorem adds_of_write {content : FileContent}
    (hfree : host.files.Free directory (name :: names)) (hname : Path.IsName name ∧ name ∉ names)
    (h : (Action.write (Path.join directory name) content).runFrom host = (.ok u, host')) :
    Adds directory names host host' ∧
      host'.files.read (Path.join directory name) = .ok content := by
  obtain ⟨files, hfiles, rfl⟩ := Action.runFrom_write_eq_ok_iff.1 h
  obtain ⟨hgrows, hfree', hread⟩ := hfree.write hname hfiles
  exact ⟨⟨⟨_, hgrows⟩, rfl, hfree'⟩, hread⟩

end Adds

/-! ## The working directory -/

section WorkingDirectory

variable {propose : FieldNameProposer}

theorem workingDirectory_of_withExtras {jar : OpenArchive}
    (h : (p.withExtras config jar).runFrom host = (.ok p', host')) :
    p'.workingDirectory = p.workingDirectory := by
  rw [withExtras, runFrom_bind_eq_ok_iff] at h
  obtain ⟨unpick, t, -, h⟩ := h
  obtain ⟨signatures, t', -, h⟩ := runFrom_bind_eq_ok_iff.1 h
  cases h
  rfl

/-- All that `storeMappings` comes to, if it succeeds: the mappings and the extras are taken out of
the jar, and then the mappings that are used are made. -/
theorem storeMappings_eq_ok
    (h : (p.storeMappings config propose).runFrom host = (.ok p', host')) :
    ∃ (t t₁ t₂ : Host) (jar : OpenArchive) (u : Unit),
      t.files = host.files ∧ t.tables = host.tables ∧
      (Jar.load config.jar).runFrom t = (.ok jar, t) ∧
      (Jar.extract jar mappingsMember p.base).runFrom t = (.ok true, t₁) ∧
      (p.withExtras config jar).runFrom t₁ = (.ok p', t₂) ∧
      (p'.makeMappings config propose).runFrom t₂ = (.ok u, host') := by
  -- the body is taken apart step by step, each with the host it ends in
  rw [storeMappings, runFrom_bind_eq_ok_iff] at h
  obtain ⟨_, t, hnotice, h⟩ := h
  obtain ⟨hfiles, htables⟩ := Action.runFrom_notice_eq_ok hnotice
  rw [runFrom_bind_eq_ok_iff] at h
  obtain ⟨jar, t', hload, h⟩ := h
  obtain rfl := (Jar.leavesState_load _).eq_of_ok hload
  rw [runFrom_bind_eq_ok_iff] at h
  obtain ⟨extracted, t₁, hextract, h⟩ := h
  cases extracted with
  | false => cases h
  | true =>
    change (p.withExtras config jar >>= fun p => _).runFrom t₁ = _ at h
    obtain ⟨p₁, t₂, hextras, h⟩ := runFrom_bind_eq_ok_iff.1 h
    obtain ⟨u, t₃, hmake, h⟩ := runFrom_bind_eq_ok_iff.1 h
    cases h
    exact ⟨t', t₁, t₂, jar, u, hfiles, htables, hload, hextract, hextras, hmake⟩

theorem workingDirectory_of_storeMappings
    (h : (p.storeMappings config propose).runFrom host = (.ok p', host')) :
    p'.workingDirectory = p.workingDirectory := by
  obtain ⟨t, t₁, t₂, jar, u, -, -, -, -, hextras, -⟩ := storeMappings_eq_ok h
  exact workingDirectory_of_withExtras hextras

theorem workingDirectory_of_takeMappings
    (h : (p.takeMappings config propose).runFrom host = (.ok p', host')) :
    p'.workingDirectory = p.workingDirectory := by
  obtain ⟨present, t, -, h⟩ := runFrom_bind_eq_ok_iff.1 h
  split at h
  · exact workingDirectory_of_storeMappings h
  · obtain ⟨jar, t', -, h⟩ := runFrom_bind_eq_ok_iff.1 h
    exact workingDirectory_of_withExtras h

/-- `fillDirectory` keeps the working directory of the artifact throughout. -/
theorem workingDirectory_of_fillDirectory
    (h : (p.fillDirectory config propose).runFrom host = (.ok p', host')) :
    p'.workingDirectory = p.workingDirectory := by
  rw [fillDirectory, runFrom_bind_eq_ok_iff] at h
  obtain ⟨_, t, -, h⟩ := h
  obtain ⟨p₁, t', htake, h⟩ := runFrom_bind_eq_ok_iff.1 h
  rw [← workingDirectory_of_takeMappings htake]
  -- the jar with the mappings is no concern of the provider
  obtain ⟨present, t'', -, h⟩ := runFrom_bind_eq_ok_iff.1 h
  split at h
  · obtain ⟨_, t₁, -, h⟩ := runFrom_bind_eq_ok_iff.1 h
    cases h
    rfl
  · cases h
    rfl

end WorkingDirectory

/-! ## The steps of the setup -/

theorem adds_of_storeUnpick {definitions metadata : ByteArray} {unpick : UnpickMetadata}
    (hfree : host.files.Free p.workingDirectory (fileNames.drop 1))
    (h : (p.storeUnpick config definitions metadata).runFrom host = (.ok unpick, host')) :
    Adds p.workingDirectory (fileNames.drop 3) host host' := by
  rw [storeUnpick, runFrom_bind_eq_ok_iff] at h
  obtain ⟨_, t, hdefinitions, h⟩ := h
  rw [runFrom_bind_eq_ok_iff] at h
  obtain ⟨_, t', hmetadata, h⟩ := h
  obtain rfl := (LeavesState.ofExcept _).eq_of_ok h
  -- each file is written under the first of the names that are free, and leaves the others
  have hfirst := adds_of_write hfree (by decide) (runFrom_within_eq_ok_iff.1 hdefinitions)
  have hsecond := adds_of_write hfirst.1.free (by decide) (runFrom_within_eq_ok_iff.1 hmetadata)
  exact hfirst.1.trans hsecond.1

theorem adds_of_takeUnpick {jar : OpenArchive} {unpick : Option UnpickMetadata}
    (hfree : host.files.Free p.workingDirectory (fileNames.drop 1))
    (h : (p.takeUnpick config jar).runFrom host = (.ok unpick, host')) :
    Adds p.workingDirectory (fileNames.drop 3) host host' := by
  rw [takeUnpick, runFrom_bind_eq_ok_iff] at h
  obtain ⟨definitions, t, hdefinitions, h⟩ := h
  obtain rfl := (Jar.leavesState_read? _ _).eq_of_ok hdefinitions
  rw [runFrom_bind_eq_ok_iff] at h
  obtain ⟨metadata, t', hmetadata, h⟩ := h
  obtain rfl := (Jar.leavesState_read? _ _).eq_of_ok hmetadata
  split at h
  · obtain ⟨unpick, hstored, -⟩ := runFrom_map_eq_ok_iff.1 h
    exact adds_of_storeUnpick hfree hstored
  · cases h
    exact .of_free hfree (by decide)

theorem leavesState_takeSignatures (config : Config) (jar : OpenArchive) :
    LeavesState (takeSignatures config jar) := by
  refine (Jar.leavesState_read? _ _).bind fun bytes? => ?_
  split
  · exact (LeavesState.ofExcept _).map
  · exact .pure _

theorem adds_of_withExtras {jar : OpenArchive}
    (hfree : host.files.Free p.workingDirectory (fileNames.drop 1))
    (h : (p.withExtras config jar).runFrom host = (.ok p', host')) :
    Adds p.workingDirectory (fileNames.drop 3) host host' := by
  rw [withExtras, runFrom_bind_eq_ok_iff] at h
  obtain ⟨unpick, t, hunpick, h⟩ := h
  rw [runFrom_bind_eq_ok_iff] at h
  obtain ⟨signatures, t', hsignatures, h⟩ := h
  obtain rfl := (leavesState_takeSignatures _ _).eq_of_ok hsignatures
  cases h
  exact adds_of_takeUnpick hfree hunpick

/-- The key of the table with which mappings are merged, a `switchedKey` of the `content` that their
file holds. -/
def intermediaryKey (path : String) (content : FileContent) : String :=
  ((Source.ofBytes path none content.toBytes).switchedKey "intermediary").text

/-- `mergeWithIntermediary` merges the tables in the two files, and keeps the second one under its
`intermediaryKey`. -/
theorem mergedTable_of_mergeWithIntermediary {base intermediary : String}
    {baseContent content : FileContent} {t : Table}
    (hbase : host.files.read base = .ok baseContent)
    (hintermediary : host.files.read intermediary = .ok content) (hfresh : host.tables = {})
    (h : (mergeWithIntermediary base intermediary).runFrom host = (.ok t, host')) :
    mergedTable baseContent.toBytes content.toBytes = .ok t ∧ host'.files = host.files ∧
      ∀ key, key ≠ intermediaryKey intermediary content → host'.tables.get? key = none := by
  rw [mergeWithIntermediary, runFrom_bind_eq_ok_iff] at h
  obtain ⟨baseTable, t₁, hread, h⟩ := h
  obtain ⟨hbaseTable, rfl⟩ := (MappingsFile.runFrom_read_eq_ok_iff hbase).1 hread
  rw [runFrom_bind, Source.runFrom_ofFile hintermediary] at h
  dsimp only at h
  rw [runFrom_bind_eq_ok_iff] at h
  obtain ⟨shared, t₂, hshared, h⟩ := h
  have hnew : t₁.tables.get? (intermediaryKey intermediary content) = none := by
    rw [hfresh]
    rfl
  -- a fresh service has to build the switched table, and keeps it
  rw [runFrom_within_eq_ok_iff, Source.getOrRead] at hshared
  obtain ⟨switched, t₃, hbuild, rfl, rfl⟩ := (Action.runFrom_getOrCreate_of_new hnew).1 hshared
  rw [runFrom_bind_eq_ok_iff] at hbuild
  obtain ⟨read, t₄, hread', hswitched⟩ := hbuild
  obtain ⟨hreadTable, rfl⟩ :=
    (MappingsFile.runFrom_read_eq_ok_iff (by exact hintermediary)).1 hread'
  obtain ⟨hswitched, hfiles, htables⟩ := Action.runFrom_ofNoted_eq_ok hswitched
  -- with both tables at hand, nothing but notices is added
  rw [runFrom_bind_eq_ok_iff] at h
  obtain ⟨⟨merged, conflicts⟩, t₅, hmerged, h⟩ := h
  obtain ⟨hmerged, hfiles₅, htables₅⟩ :=
    Action.runFrom_ofNoted_eq_ok (runFrom_within_eq_ok_iff.1 hmerged)
  dsimp only at h
  rw [runFrom_bind_eq_ok_iff] at h
  obtain ⟨u, t₆, hexpected, h⟩ := h
  rw [runFrom_ofExcept, Prod.mk.injEq, within_eq_ok_iff] at hexpected
  obtain ⟨hexpected, rfl⟩ := hexpected
  rw [runFrom_bind_eq_ok_iff] at h
  obtain ⟨⟨completed, count⟩, t₇, hcompleted, h⟩ := h
  obtain ⟨houtcome, hfiles₇, htables₇⟩ := Action.runFrom_ofNoted_eq_ok hcompleted
  cases h
  refine ⟨?_, ?_, fun key hkey => ?_⟩
  · exact mergedTable_eq_ok_iff.2 ⟨baseTable, read, switched, merged, conflicts, count,
      hbaseTable, hreadTable, hswitched, hmerged, hexpected, houtcome⟩
  · rw [hfiles₇, hfiles₅]
    exact hfiles
  · rw [htables₇, htables₅]
    dsimp only
    rw [Service.get?_store_of_ne hkey, htables]
    dsimp only
    rw [Service.get?_reserve, hfresh, Service.get?_empty]

/-- Whether a file holds what is written for a table, and no table is kept but under one `key`. -/
structure Stores (path : String) (t : Table) (key : String) (host : Host) : Prop where
  read : host.files.read path = .ok (.bytes (Nested.write t).toUTF8)
  tables : ∀ other, other ≠ key → host.tables.get? other = none

theorem Stores.of_adds {directory path key : String} {names : List String} {t : Table}
    (h : Stores path t key host) (hadds : Adds directory names host host') :
    Stores path t key host' :=
  ⟨hadds.read h.read, hadds.tables ▸ h.tables⟩

section Making

variable {base : ByteArray} {content : FileContent} {propose : FieldNameProposer}

/-- `makeMappings` merges mappings of the nested dialect with the intermediary ones, and stores
them. -/
theorem stores_of_makeMappings (hbase : host.files.read p.base = .ok (.bytes base))
    (hdialect : detect base = .ok .nested)
    (hintermediary : host.files.read config.intermediary = .ok content) (hfresh : host.tables = {})
    (hfree : host.files.Free p.workingDirectory (fileNames.drop 3))
    (h : (p.makeMappings config propose).runFrom host = (.ok u, host')) :
    ∃ t, mergedTable base content.toBytes = .ok t ∧
      Stores p.mappingsPath t (intermediaryKey config.intermediary content) host' ∧
      host'.files.Free p.workingDirectory (fileNames.drop 4) := by
  rw [makeMappings, runFrom_bind_eq_ok_iff] at h
  obtain ⟨dialect, t₁, hdetect, h⟩ := h
  obtain ⟨hfound, rfl⟩ := (MappingsFile.runFrom_detect_eq_ok_iff hbase).1 hdetect
  -- a nested file is merged with the intermediary one, whose table is kept in the service
  obtain rfl := Except.ok.inj (hdialect.symm.trans hfound)
  dsimp only at h
  rw [runFrom_bind_eq_ok_iff] at h
  obtain ⟨t, t₂, hmerge, h⟩ := h
  obtain ⟨hmerged, hfiles, htables⟩ :=
    mergedTable_of_mergeWithIntermediary hbase hintermediary hfresh hmerge
  rw [MappingsFile.write, runFrom_bind_eq_ok_iff] at h
  obtain ⟨u', t₃, hwrite, h⟩ := h
  cases h
  rw [← hfiles] at hfree
  obtain ⟨hadds, hread⟩ :=
    adds_of_write hfree (by decide) (Action.runFrom_writeIn_eq_ok_iff.1 hwrite)
  exact ⟨t, hmerged, ⟨hread, hadds.tables ▸ htables⟩, hadds.free⟩

/-- `storeMappings` takes the mappings out of the jar, merges them with the intermediary ones, and
stores them. -/
theorem stores_of_storeMappings (hjar : Jar.Holds host config.jar mappingsMember base)
    (hdialect : detect base = .ok .nested)
    (hintermediary : host.files.read config.intermediary = .ok content) (hfresh : host.tables = {})
    (hfree : host.files.Free p.workingDirectory fileNames)
    (h : (p.storeMappings config propose).runFrom host = (.ok p', host')) :
    ∃ t, mergedTable base content.toBytes = .ok t ∧
      Stores p'.mappingsPath t (intermediaryKey config.intermediary content) host' ∧
      host'.files.Free p'.workingDirectory (fileNames.drop 4) := by
  obtain ⟨s, t₁, t₂, jar, u, hfiles, htables, hload, hextract, hextras, hmake⟩ :=
    storeMappings_eq_ok h
  rw [← hfiles] at hintermediary hfree
  rw [← htables] at hfresh
  obtain ⟨jar', hload', hread⟩ := Jar.holds_iff.1 (hjar.of_grows (.of_eq hfiles))
  obtain rfl : jar' = jar := Except.ok.inj (congrArg Prod.fst (hload'.symm.trans hload))
  obtain ⟨hadds, hbase⟩ := adds_of_write hfree (by decide)
    (Jar.runFrom_extract_eq_ok hextract hread)
  have hadds' := adds_of_withExtras hadds.free hextras
  have hdirectory := workingDirectory_of_withExtras hextras
  -- what was written first is still there when the mappings are made
  have hall := hadds.trans hadds'
  have hbase' : t₂.files.read p'.base = .ok (.bytes base) := by
    rw [Provider.base, file, hdirectory]
    exact hadds'.read hbase
  exact stores_of_makeMappings hbase' hdialect (hall.read hintermediary)
    (hall.tables.trans hfresh) (hdirectory ▸ hall.free) hmake

/-- `storeJar` adds a jar with the mappings. -/
theorem adds_of_storeJar (hfree : host.files.Free p.workingDirectory (fileNames.drop 4))
    (h : p.storeJar.runFrom host = (.ok u, host')) : Adds p.workingDirectory [] host host' := by
  have habsent : host.files.isPresent p.mappingsJar = false :=
    hfree.isPresent_eq_false (by decide) (by decide)
  rw [storeJar, runFrom_bind, Action.runFrom_isPresent, habsent] at h
  dsimp only at h
  rw [if_neg Bool.false_ne_true, runFrom_bind_eq_ok_iff] at h
  obtain ⟨content, t, hread, h⟩ := h
  rw [runFrom_within_eq_ok_iff, Action.runFrom_query_eq_ok_iff] at hread
  obtain ⟨-, rfl⟩ := hread
  exact (adds_of_write hfree (by decide) (Action.runFrom_writeIn_eq_ok_iff.1 h)).1

/-- If nothing is in the working directory, `takeMappings` makes the mappings. -/
theorem stores_of_takeMappings (hjar : Jar.Holds host config.jar mappingsMember base)
    (hdialect : detect base = .ok .nested)
    (hintermediary : host.files.read config.intermediary = .ok content) (hfresh : host.tables = {})
    (hfree : host.files.Free p.workingDirectory fileNames)
    (h : (p.takeMappings config propose).runFrom host = (.ok p', host')) :
    ∃ t, mergedTable base content.toBytes = .ok t ∧
      Stores p'.mappingsPath t (intermediaryKey config.intermediary content) host' ∧
      host'.files.Free p'.workingDirectory (fileNames.drop 4) := by
  have habsent : host.files.isPresent p.mappingsPath = false :=
    hfree.isPresent_eq_false (by decide) (by decide)
  rw [takeMappings, runFrom_bind, Action.runFrom_isPresent, habsent] at h
  exact stores_of_storeMappings hjar hdialect hintermediary hfresh hfree h

/-- `clean` removes what is there and makes the directory anew, and does not fail. -/
theorem runFrom_clean (directory : String) (host : Host) :
    ∃ host', (clean directory).runFrom host = (.ok (), host') ∧
      host'.files = ((if host.files.isPresent directory then
        (host.files.removeDirectory directory).2 else host.files).createDirectories directory).2 ∧
      host'.tables = host.tables := by
  rw [clean, runFrom_bind, Action.runFrom_isPresent]
  dsimp only
  by_cases hpresent : host.files.isPresent directory = true
  · rw [if_pos hpresent, if_pos hpresent, runFrom_bind, Action.runFrom_attempt]
    dsimp only
    -- a failure is noticed, and the directory is made all the same
    split
    · rw [runFrom_bind, Action.runFrom_notice]
      refine Action.runFrom_attempt_bind _ (fun outcome _ => ?_) _
      cases outcome <;> exact ⟨_, rfl, rfl, rfl⟩
    · refine Action.runFrom_attempt_bind _ (fun outcome _ => ?_) _
      cases outcome <;> exact ⟨_, rfl, rfl, rfl⟩
  · rw [if_neg hpresent, if_neg hpresent]
    refine Action.runFrom_attempt_bind _ (fun outcome _ => ?_) _
    cases outcome <;> exact ⟨_, rfl, rfl, rfl⟩

/-- Where nothing was, `clean` removes nothing, and makes the directory. -/
theorem runFrom_clean_of_vacant {directory : String} (hvacant : host.files.Vacant directory)
    (h : (clean directory).runFrom host = (.ok u, host')) :
    host'.files = (host.files.createDirectories directory).2 ∧ host'.tables = host.tables := by
  have habsent : host.files.isPresent directory = false :=
    FileStore.isPresent_eq_false (by simpa using hvacant.nodes [])
  obtain ⟨t, hclean, hfiles, htables⟩ := runFrom_clean directory host
  rw [habsent, if_neg Bool.false_ne_true] at hfiles
  rw [hclean] at h
  cases h
  exact ⟨hfiles, htables⟩

/-- Where nothing was, the working directory is there after `makeDirectory`, and nothing is in
it. -/
theorem adds_of_makeDirectory (hvacant : host.files.Vacant p.workingDirectory)
    (h : (p.makeDirectory config).runFrom host = (.ok u, host')) :
    Adds p.workingDirectory fileNames host host' := by
  have hcreate : ∀ {t : Host}, (within (.createWorkingDirectory p.workingDirectory)
      (Action.createDirectories p.workingDirectory)).runFrom t = (.ok u, host') →
      host' = { t with files := (t.files.createDirectories p.workingDirectory).2 } := fun h =>
    Action.runFrom_createDirectories_eq_ok (runFrom_within_eq_ok_iff.1 h)
  have hgrows := host.files.grows_createDirectories p.workingDirectory
  unfold makeDirectory at h
  split at h
  · obtain ⟨_, t, hclean, h⟩ := runFrom_bind_eq_ok_iff.1 h
    obtain ⟨hfiles, htables⟩ := runFrom_clean_of_vacant hvacant hclean
    obtain rfl := hcreate h
    -- the directories are made twice, at the same places
    have hagain := t.files.grows_createDirectories p.workingDirectory
    rw [← hfiles] at hgrows
    rw [show t.files.target = host.files.target from funext hgrows.target_eq] at hagain
    have htwice := (hgrows.trans hagain).mono (List.append_subset.2 ⟨fun _ => id, fun _ => id⟩)
    exact ⟨⟨_, htwice⟩, htables, hvacant.free htwice _⟩
  · obtain rfl := hcreate h
    exact ⟨⟨_, hgrows⟩, rfl, hvacant.free hgrows _⟩

/-- `fillDirectory` stores the table that is made if nothing was where the working directory is to
be. -/
theorem stores_of_fillDirectory (hvacant : host.files.Vacant p.workingDirectory)
    (hjar : Jar.Holds host config.jar mappingsMember base) (hdialect : detect base = .ok .nested)
    (hintermediary : host.files.read config.intermediary = .ok content) (hfresh : host.tables = {})
    (h : (p.fillDirectory config propose).runFrom host = (.ok p', host')) :
    ∃ t, mergedTable base content.toBytes = .ok t ∧
      Stores p'.mappingsPath t (intermediaryKey config.intermediary content) host' := by
  rw [fillDirectory, runFrom_bind_eq_ok_iff] at h
  obtain ⟨_, t₁, hmake, h⟩ := h
  have hadds := adds_of_makeDirectory hvacant hmake
  obtain ⟨places, hgrows⟩ := hadds.grows
  rw [runFrom_bind_eq_ok_iff] at h
  obtain ⟨p₁, t₂, htake, h⟩ := h
  obtain ⟨t, hmerged, hstores, hfree⟩ := stores_of_takeMappings (hjar.of_grows hgrows) hdialect
    (hadds.read hintermediary) (hadds.tables.trans hfresh) hadds.free htake
  -- the directory was empty, so there is no jar to be trusted
  have habsent : t₂.files.isPresent p₁.mappingsJar = false :=
    hfree.isPresent_eq_false (by decide) (by decide)
  rw [runFrom_bind, Action.runFrom_isPresent, habsent] at h
  dsimp only at h
  rw [if_pos (by rfl), runFrom_bind_eq_ok_iff] at h
  obtain ⟨_, t₃, hjarStored, h⟩ := h
  cases h
  exact ⟨t, hmerged, hstores.of_adds (adds_of_storeJar hfree hjarStored)⟩

theorem leavesState_inspectJar (jar : String) : LeavesState (inspectJar jar) := by
  refine (Jar.leavesState_load jar).bind fun archive => ?_
  refine (Jar.leavesState_read? archive _).bind fun bytes? => ?_
  cases bytes? with
  | none => exact .fail _
  | some bytes => exact .ofExcept _

theorem runFrom_checkGameVersion_eq_ok {inspection : Inspection}
    (h : (checkGameVersion config inspection).runFrom host = (.ok u, host')) :
    host'.files = host.files ∧ host'.tables = host.tables := by
  unfold checkGameVersion at h
  split at h
  · split at h
    · exact Action.runFrom_notice_eq_ok h
    · cases h
      exact ⟨rfl, rfl⟩
  · cases h
    exact ⟨rfl, rfl⟩

/-- A `setUp` that succeeds has filled the working directory by `fillDirectory`. -/
theorem setUp_eq_ok (h : (setUp config propose).runFrom host = (.ok p, host')) :
    ∃ (inspection : Inspection) (t : Host),
      (inspectJar config.jar).runFrom host = (.ok inspection, host) ∧
      t.files = host.files ∧ t.tables = host.tables ∧
      ((ofConfig config inspection.dialect).fillDirectory config propose).runFrom t =
        (.ok p, host') := by
  rw [setUp, runFrom_bind_eq_ok_iff] at h
  obtain ⟨inspection, t₁, hinspect, h⟩ := h
  obtain rfl := (leavesState_inspectJar _).eq_of_ok hinspect
  rw [runFrom_bind_eq_ok_iff] at h
  obtain ⟨_, t₂, hcheck, h⟩ := h
  obtain ⟨hfiles, htables⟩ := runFrom_checkGameVersion_eq_ok hcheck
  -- a setup that failed on the way cleans up and fails, so this one did not
  have hfill := runFrom_tryCatch_eq_ok (fun failure t t' p hhandled => by
    obtain ⟨_, t₃, -, hthrow⟩ := runFrom_bind_eq_ok_iff.1 hhandled
    cases hthrow) h
  exact ⟨inspection, t₂, hinspect, hfiles, htables, hfill⟩

/-- What a `setUp` that succeeds stores, if nothing was where the working directory is to be. -/
theorem stores_of_setUp (hvacant : host.files.Vacant p.workingDirectory)
    (hjar : Jar.Holds host config.jar mappingsMember base) (hdialect : detect base = .ok .nested)
    (hintermediary : host.files.read config.intermediary = .ok content) (hfresh : host.tables = {})
    (h : (setUp config propose).runFrom host = (.ok p, host')) :
    ∃ t, mergedTable base content.toBytes = .ok t ∧
      Stores p.mappingsPath t (intermediaryKey config.intermediary content) host' := by
  obtain ⟨inspection, t, -, hfiles, htables, hfill⟩ := setUp_eq_ok h
  rw [← hfiles] at hvacant hintermediary
  rw [← htables] at hfresh
  rw [workingDirectory_of_fillDirectory hfill] at hvacant
  exact stores_of_fillDirectory hvacant (hjar.of_grows (.of_eq hfiles)) hdialect
    hintermediary hfresh
    hfill

end Making

end MappingTables.Artifact.Provider
