import MappingTables.Proofs.Artifact.Provider
import MappingTables.Proofs.Files.Directories

/-!
# What a setup may change

Each step of a setup writes files of its own in the working directory, and changes no other ones,
whether it succeeds or fails.

* `Host.EditsIn`: whether nothing changed but what is under some names in a directory.
* `Host.NoNewDirectories`: whether no directories were added.
* `Artifact.FieldNameProposer.WritesOnly`: what is asked of a proposer.
* `respects_withExtras`, `respects_makeMappings`, `respects_storeMappings`, `respects_storeJar`: the
  files of the steps.
-/

namespace MappingTables

open Step

/-- Whether no files changed but those under some `names` in a `directory`. -/
def Host.EditsIn (directory : String) (names : List String) (host host' : Host) : Prop :=
  FileStore.Confined (fun place => ∃ name ∈ names, place = host.files.target directory ++ [name]) []
    host.files host'.files

namespace Host.EditsIn

variable {directory name : String} {names names' : List String} {host host' : Host}

instance : Std.Refl (EditsIn directory names) :=
  ⟨fun host => .refl _ _ host.files⟩

instance : IsTrans Host (EditsIn directory names) where
  trans host host' host'' h h' := by
    rw [EditsIn, h.target_eq] at h'
    exact h.trans h'

theorem mono (h : EditsIn directory names host host') (hsub : names ⊆ names') :
    EditsIn directory names' host host' := by
  refine FileStore.Confined.mono h ?_ fun _ => id
  rintro place ⟨name, hname, rfl⟩
  exact ⟨name, hsub hname, rfl⟩

theorem of_sameFiles (h : Action.SameFiles host host') : EditsIn directory names host host' := by
  rw [EditsIn, show host'.files = host.files from h]
  exact .refl _ _ host.files

/-- What is under any name but `names` is left alone. -/
theorem node?_eq (h : EditsIn directory names host host') (hname : name ∉ names) :
    host'.files.node? (host.files.target directory ++ [name]) =
      host.files.node? (host.files.target directory ++ [name]) := by
  refine FileStore.Confined.node?_eq h ?_ List.not_mem_nil
  rintro ⟨other, hother, heq⟩
  rw [List.append_cancel_left_eq, List.singleton_inj] at heq
  exact hname (heq ▸ hother)

/-- The `directory` itself stays. -/
theorem there (h : EditsIn directory names host host')
    (hnode : host.files.node? (host.files.target directory) = some .directory) :
    host'.files.node? (host'.files.target directory) = some .directory := by
  rw [h.target_eq]
  refine FileStore.Confined.directory h ?_ hnode
  rintro ⟨name, -, heq⟩
  simpa using congrArg List.length heq

end Host.EditsIn

/-- Whether no directories were added: each one of `host'` was there on `host`. -/
def Host.NoNewDirectories (host host' : Host) : Prop :=
  ∀ place, host'.files.node? place = some .directory → host.files.node? place = some .directory

instance : Std.Refl Host.NoNewDirectories :=
  ⟨fun _ _ => id⟩

instance : IsTrans Host Host.NoNewDirectories :=
  ⟨fun _ _ _ h h' place => h place ∘ h' place⟩

/-- What `Action.write` writes is a file. -/
theorem Action.noNewDirectories_write (path : String) (content : FileContent) :
    Respects Host.NoNewDirectories (Action.write path content) := by
  refine respects_changeAll fun host place hplace => ?_
  dsimp only at hplace
  obtain hsame | ⟨hnode, written, isExecutable, hset⟩ := host.files.write_snd path content
  · rwa [hsame] at hplace
  · rw [hset] at hplace
    by_cases htarget : place = host.files.target path
    · rw [htarget, FileStore.node?_set_self hnode] at hplace
      cases hplace
    · rwa [FileStore.node?_set_of_ne htarget] at hplace

/-- `Jar.extract` writes one file, if it writes any. -/
theorem Jar.respects_extract_of {R : Host → Host → Prop} [Std.Refl R] [IsTrans Host R]
    {path : String} (hwrite : ∀ content, Respects R (Action.write path content)) (jar : OpenArchive)
    (member : String) : Respects R (Jar.extract jar member path) := by
  refine (Jar.leavesState_read? jar member).respects.bind fun bytes? => ?_
  cases bytes? with
  | none => exact .pure _
  | some bytes => exact (hwrite _).within.bind fun _ => .pure _

/-! ## Files in a directory -/

section Files

variable {directory name : String} {names : List String} (hname : Path.IsName name)

include hname

theorem Action.respects_write (hmem : name ∈ names) (content : FileContent) :
    Respects (Host.EditsIn directory names) (Action.write (Path.join directory name) content) := by
  refine respects_changeAll fun host => ?_
  refine (host.files.confined_write _ content).mono (fun place hplace => ?_) fun _ => id
  exact ⟨name, hmem, hplace.trans (FileStore.target_join hname)⟩

theorem Action.respects_removeFile (hmem : name ∈ names) :
    Respects (Host.EditsIn directory names)
      (Action.change (·.removeFile (Path.join directory name))) := by
  refine respects_change fun host files hremove => ?_
  refine (FileStore.confined_of_removeFile hremove).mono (fun place hplace => ?_) fun _ => id
  exact ⟨name, hmem, hplace.trans (FileStore.target_join hname)⟩

theorem Jar.respects_extract (hmem : name ∈ names) (jar : OpenArchive) (member : String) :
    Respects (Host.EditsIn directory names) (Jar.extract jar member (Path.join directory name)) :=
  respects_extract_of (Action.respects_write hname hmem) jar member

/-- What `Action.write` wrote is in the file, unless the file keeps nothing: it is what the file has
`received`. -/
theorem Action.node?_of_runFrom_write {content : FileContent} {host host' : Host} {u : Unit}
    (h : (Action.write (Path.join directory name) content).runFrom host = (.ok u, host')) :
    ∃ isExecutable, host'.files.node? (host.files.target directory ++ [name]) = some (.file
      (host.files.received (host.files.target directory ++ [name]) content) isExecutable) := by
  obtain ⟨files, hfiles, rfl⟩ := runFrom_write_eq_ok_iff.1 h
  obtain ⟨isExecutable, hnode⟩ := FileStore.node?_of_write hfiles
  exact ⟨isExecutable, FileStore.target_join hname ▸ hnode⟩

/-- What `Jar.extract` took out of a jar is in a file. -/
theorem Jar.isFile_of_runFrom_extract {jar : OpenArchive} {member : String} {host host' : Host}
    (h : (Jar.extract jar member (Path.join directory name)).runFrom host = (.ok true, host')) :
    host'.files.IsFile (host.files.target directory ++ [name]) := by
  obtain ⟨bytes, hwrite⟩ := Jar.exists_write_of_runFrom_extract h
  exact ⟨_, Action.node?_of_runFrom_write hname hwrite⟩

end Files

namespace Artifact

/-- Whether `propose` changes no file but the one that it is to write. It may fail, and it may leave
that file unwritten or unfinished. -/
def FieldNameProposer.WritesOnly (propose : FieldNameProposer) : Prop :=
  ∀ gameJar base out, Respects (fun host host' : Host =>
    FileStore.Confined (· = host.files.target out) [] host.files host'.files)
      (propose gameJar base out)

namespace Provider

variable (p : Provider) (config : Config) {propose : FieldNameProposer} {names : List String}

/-- `withExtras` writes the definitions and their metadata, and nothing else. -/
theorem respects_withExtras_of {R : Host → Host → Prop} [Std.Refl R] [IsTrans Host R]
    (hdefinitions : ∀ content, Respects R (Action.write p.definitionsPath content))
    (hmetadata : ∀ content, Respects R (Action.write p.unpickPath content)) (jar : OpenArchive) :
    Respects R (p.withExtras config jar) := by
  have hstore : ∀ definitions metadata, Respects R (p.storeUnpick config definitions metadata) :=
    fun _ _ => (hdefinitions _).within.bind fun _ => (hmetadata _).within.bind fun _ => .ofExcept _
  have hunpick : Respects R (p.takeUnpick config jar) := by
    refine (Jar.leavesState_read? jar _).respects.bind fun definitions => ?_
    refine (Jar.leavesState_read? jar _).respects.bind fun metadata => ?_
    split
    · exact (hstore _ _).map
    · exact .pure _
  exact hunpick.bind fun _ =>
    (leavesState_takeSignatures config jar).respects.bind fun _ => .pure _

theorem respects_withExtras (hnames : ["mappings.unpick", "unpick.json"] ⊆ names)
    (jar : OpenArchive) :
    Respects (Host.EditsIn p.workingDirectory names) (p.withExtras config jar) :=
  p.respects_withExtras_of config (Action.respects_write (by decide) (hnames (by decide)))
    (Action.respects_write (by decide) (hnames (by decide))) jar

theorem respects_mergeWithIntermediary (base intermediary : String) :
    Respects Action.SameFiles (mergeWithIntermediary base intermediary) := by
  refine (MappingsFile.leavesState_read base).respects.bind fun baseTable => ?_
  refine (Source.leavesState_ofFile intermediary).respects.bind fun source => ?_
  refine (source.respects_getOrRead _).within.bind fun shared => ?_
  refine (Action.respects_ofNoted _).within.bind fun ⟨merged, conflicts⟩ => ?_
  refine .bind (.ofExcept _) fun _ => ?_
  exact (Action.respects_ofNoted _).bind fun _ => .pure _

theorem respects_removeMappings (hname : "mappings.tiny" ∈ names) :
    Respects (Host.EditsIn p.workingDirectory names) p.removeMappings := by
  refine .bind (fun host => Std.Refl.refl host) fun present => ?_
  split
  · exact (Action.respects_removeFile (by decide) hname).within
  · exact .pure _

/-- `makeMappings` makes the mappings in their own file, also if the proposer goes wrong. -/
theorem respects_makeMappings (hname : "mappings.tiny" ∈ names) (hpropose : propose.WritesOnly) :
    Respects (Host.EditsIn p.workingDirectory names) (p.makeMappings config propose) := by
  refine (MappingsFile.leavesState_detect _).respects.bind fun dialect => ?_
  cases dialect with
  | nested =>
    have hmerge : Respects (Host.EditsIn p.workingDirectory names)
        (mergeWithIntermediary p.base config.intermediary) :=
      (respects_mergeWithIntermediary _ _).mono fun _ _ => .of_sameFiles
    have hwrite : ∀ content, Respects (Host.EditsIn p.workingDirectory names)
        (Action.write p.mappingsPath content) := fun content =>
      Action.respects_write (by decide) hname content
    -- a table in the nested dialect is written without notices
    exact hmerge.bind fun t => (Action.respects_writeIn (hwrite _) _ _).bind fun _ => .pure _
  | plain =>
    dsimp only
    split
    · next jar hgame =>
      have hproposed : Respects (Host.EditsIn p.workingDirectory names)
          (propose jar p.base p.mappingsPath) := by
        refine (hpropose _ _ _).mono fun host host' h => ?_
        refine h.mono (fun place hplace => ?_) fun _ => id
        exact ⟨_, hname, hplace.trans (FileStore.target_join (by decide))⟩
      exact (p.respects_removeMappings hname).bind fun _ => hproposed
    · exact .fail _

theorem respects_storeMappings (hpropose : propose.WritesOnly) :
    Respects (Host.EditsIn p.workingDirectory fileNames.dropLast)
      (p.storeMappings config propose) := by
  refine .bind ((Action.respects_notice _).mono fun _ _ => .of_sameFiles) fun _ => ?_
  refine (Jar.leavesState_load _).respects.bind fun jar => ?_
  have hextract : Respects (Host.EditsIn p.workingDirectory fileNames.dropLast)
      (Jar.extract jar mappingsMember p.base) :=
    Jar.respects_extract (by decide) (by decide) jar _
  refine hextract.bind fun extracted => ?_
  cases extracted with
  | false => exact .fail _
  | true =>
    refine (p.respects_withExtras config (by decide) jar).bind_of_ok fun p' s t hok => ?_
    rw [← workingDirectory_of_withExtras hok]
    exact (p'.respects_makeMappings config (by decide) hpropose).bind fun _ => .pure _

theorem respects_takeMappings (hpropose : propose.WritesOnly) :
    Respects (Host.EditsIn p.workingDirectory fileNames.dropLast)
      (p.takeMappings config propose) := by
  refine .bind (fun host => Std.Refl.refl host) fun present => ?_
  split
  · exact p.respects_storeMappings config hpropose
  · refine (Jar.leavesState_load _).respects.bind fun jar => ?_
    exact p.respects_withExtras config (by decide) jar

theorem respects_storeJar (hname : "mappings.jar" ∈ names) :
    Respects (Host.EditsIn p.workingDirectory names) p.storeJar := by
  have hremove : Respects (Host.EditsIn p.workingDirectory names)
      (within (.removeFile p.mappingsJar) (Action.change (·.removeFile p.mappingsJar))) :=
    (Action.respects_removeFile (by decide) hname).within
  have hwrite : ∀ bytes, Respects (Host.EditsIn p.workingDirectory names)
      (Jar.writeSingle p.mappingsJar mappingsMember bytes) := fun bytes =>
    Action.respects_writeIn (Action.respects_write (by decide) hname _) _ _
  have hread : Respects (Host.EditsIn p.workingDirectory names)
      (within (.readFile p.mappingsPath) (Action.query (·.read p.mappingsPath))) :=
    (Action.leavesState_query _).within.respects
  refine .bind (fun host => Std.Refl.refl host) fun present => ?_
  split
  · exact hremove.bind fun _ => hread.bind fun _ => hwrite _
  · exact hread.bind fun _ => hwrite _

end Provider

end Artifact

end MappingTables
