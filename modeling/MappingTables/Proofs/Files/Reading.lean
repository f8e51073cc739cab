import MappingTables.Files.Jar
import MappingTables.Files.MappingsFile
import MappingTables.Proofs.Files.FileStore
import MappingTables.Proofs.Host

/-!
# Reading from files and jars

What is read depends on the files that are there and changes nothing, so the same is read as long as
no file is changed.

* `runFrom_read_eq_ok_iff`, `runFrom_detect_eq_ok_iff`: the table in a file, and its dialect.
* `Jar.Holds`: what a member of a jar holds.
-/

namespace MappingTables

open Step

variable {host host' : Host} {path : String} {content : FileContent}

namespace Action

theorem leavesState_query {α : Type} (ask : FileStore → Except SystemError α) :
    LeavesState (query ask) := by
  refine LeavesState.get.bind fun host => ?_
  split
  · exact .pure _
  · exact .fail _

theorem leavesState_openArchive (opening reading : Context) (path : String) :
    LeavesState (openArchive opening reading path) := by
  refine (leavesState_query _).within.bind fun node => ?_
  refine (leavesState_query _).within.bind fun location => ?_
  cases node with
  | directory => exact (LeavesState.fail _).within
  | file content isExecutable =>
    dsimp only
    split
    · exact .pure _
    · exact (LeavesState.fail _).within

theorem leavesState_openInput (path : String) : LeavesState (openInput path) := by
  refine (leavesState_query _).bind fun node => ?_
  cases node with
  | directory => exact .pure _
  | file content isExecutable => exact .pure _

end Action

theorem OpenArchive.leavesState_member (archive : OpenArchive) (name : String) :
    LeavesState (archive.member name) := by
  unfold member
  split
  · exact .fail _
  · refine LeavesState.get.bind fun host => ?_
    split
    · exact .pure _
    · exact .fail _

theorem leavesState_openMember (path member : String) : LeavesState (openMember path member) :=
  (Action.leavesState_openArchive _ _ path).bind fun archive =>
    (archive.leavesState_member member).within

/-! ## Files -/

theorem FileStore.find_of_read {fs : FileStore} (h : fs.read path = .ok content) :
    ∃ isExecutable, fs.find path = .ok (.file content isExecutable) := by
  obtain ⟨node, hfind, h⟩ := bind_eq_ok_iff.1 h
  cases node with
  | directory => cases h
  | file content' isExecutable =>
    cases h
    exact ⟨isExecutable, hfind⟩

theorem Action.runFrom_openInput (h : host.files.read path = .ok content) :
    (Action.openInput path).runFrom host = (.ok { bytes := content.toBytes }, host) := by
  obtain ⟨isExecutable, hfind⟩ := FileStore.find_of_read h
  exact runFrom_bind_eq_ok_iff.2 ⟨_, host, runFrom_query_eq_ok_iff.2 ⟨hfind, rfl⟩, rfl⟩

/-- What `openInput` can open is a file, or a directory, which cannot be read. -/
theorem Action.runFrom_openInput_eq_ok {input : Input}
    (h : (Action.openInput path).runFrom host = (.ok input, host')) :
    (∃ content, host.files.read path = .ok content ∧ input = { bytes := content.toBytes }) ∨
      input = { bytes := ByteArray.empty, fault := some (.system .isADirectory) } := by
  obtain ⟨node, t, hquery, h⟩ := runFrom_bind_eq_ok_iff.1 h
  obtain ⟨hfind, rfl⟩ := runFrom_query_eq_ok_iff.1 hquery
  cases node with
  | directory =>
    cases h
    exact .inr rfl
  | file content isExecutable =>
    cases h
    exact .inl ⟨content, bind_eq_ok_iff.2 ⟨_, hfind, rfl⟩, rfl⟩

namespace MappingsFile

open Format

section

variable {α : Type} {reading : Context} {read : Input → Except Failure α} {a : α}

/-- What `readIn` reads of a file that can be read. -/
theorem runFrom_readIn (reading : Context) (read : Input → Except Failure α)
    (h : host.files.read path = .ok content) :
    (readIn reading read path).runFrom host =
      (within reading (read { bytes := content.toBytes }), host) := by
  rw [readIn, runFrom_bind, runFrom_within, Action.runFrom_openInput h, within_ok]
  rfl

theorem runFrom_readIn_eq_ok_iff (h : host.files.read path = .ok content) :
    (readIn reading read path).runFrom host = (.ok a, host') ↔
      read { bytes := content.toBytes } = .ok a ∧ host' = host := by
  rw [runFrom_readIn reading read h, Prod.mk.injEq, within_eq_ok_iff]
  exact and_congr_right fun _ => eq_comm

theorem leavesState_readIn (reading : Context) (read : Input → Except Failure α) (path : String) :
    LeavesState (readIn reading read path) :=
  (Action.leavesState_openInput path).within.bind fun _ => .ofExcept _

end

theorem leavesState_read (path : String) : LeavesState (MappingsFile.read path) :=
  leavesState_readIn _ _ path

theorem leavesState_detect (path : String) : LeavesState (MappingsFile.detect path) :=
  (leavesState_readIn _ _ path).bind fun _ => .ofExcept _

/-- `MappingsFile.read` gives the table in a file that can be read. -/
theorem runFrom_read_eq_ok_iff {t : Table} (h : host.files.read path = .ok content) :
    (MappingsFile.read path).runFrom host = (.ok t, host') ↔
      Format.read content.toBytes = .ok t ∧ host' = host :=
  runFrom_readIn_eq_ok_iff h

/-- A table that `MappingsFile.read` read is in a file. -/
theorem exists_read_of_runFrom_read {t : Table}
    (h : (MappingsFile.read path).runFrom host = (.ok t, host')) :
    ∃ content, host.files.read path = .ok content := by
  obtain ⟨input, host'', hopen, hread⟩ := runFrom_bind_eq_ok_iff.1 h
  rw [runFrom_within_eq_ok_iff] at hopen
  obtain ⟨content, hcontent, -⟩ | rfl := Action.runFrom_openInput_eq_ok hopen
  · exact ⟨content, hcontent⟩
  · rw [runFrom_ofExcept, Prod.mk.injEq, within_eq_ok_iff] at hread
    obtain ⟨dialect, hdetect, -⟩ := bind_eq_ok_iff.1 hread.1
    obtain ⟨header, hheader, -⟩ := bind_eq_ok_iff.1 hdetect
    -- a fault in front of everything takes the place of the header
    have hfault : Input.header ⟨ByteArray.empty, some (.system .isADirectory)⟩ =
        .error (.system .isADirectory) := if_neg (by simp)
    rw [readHeaderLine, hfault] at hheader
    cases hheader

/-- `MappingsFile.detect` gives the dialect of a file that can be read. -/
theorem runFrom_detect_eq_ok_iff {dialect : Dialect} (h : host.files.read path = .ok content) :
    (MappingsFile.detect path).runFrom host = (.ok dialect, host') ↔
      Format.detect content.toBytes = .ok dialect ∧ host' = host := by
  rw [MappingsFile.detect, runFrom_bind_eq_ok_iff]
  simp only [runFrom_readIn_eq_ok_iff h, runFrom_ofExcept, Prod.mk.injEq, within_eq_ok_iff]
  constructor
  · rintro ⟨line, t, ⟨hline, rfl⟩, hdialect, rfl⟩
    exact ⟨bind_eq_ok_iff.2 ⟨line, hline, hdialect⟩, rfl⟩
  · rintro ⟨hdetect, rfl⟩
    obtain ⟨line, hline, hdialect⟩ := bind_eq_ok_iff.1 hdetect
    exact ⟨line, _, ⟨hline, rfl⟩, hdialect, rfl⟩

end MappingsFile

/-- `Source.ofFile` gives the source with the hash of the content. -/
theorem Source.runFrom_ofFile (h : host.files.read path = .ok content) :
    (Source.ofFile path).runFrom host = (.ok (.ofBytes path none content.toBytes), host) := by
  refine runFrom_bind_eq_ok_iff.2 ⟨content.toBytes, host, ?_, rfl⟩
  rw [runFrom_within_eq_ok_iff, runFrom_bind_eq_ok_iff]
  exact ⟨_, host, Action.runFrom_openInput h, rfl⟩

/-- `Source.ofFile` can only make a source of a file. -/
theorem Source.exists_read_of_runFrom_ofFile {s : Source}
    (h : (Source.ofFile path).runFrom host = (.ok s, host')) :
    ∃ content, host.files.read path = .ok content := by
  obtain ⟨bytes, t, hbytes, -⟩ := runFrom_bind_eq_ok_iff.1 h
  rw [runFrom_within_eq_ok_iff] at hbytes
  obtain ⟨input, t', hopen, hall⟩ := runFrom_bind_eq_ok_iff.1 hbytes
  obtain ⟨content, hcontent, -⟩ | rfl := Action.runFrom_openInput_eq_ok hopen
  · exact ⟨content, hcontent⟩
  · cases hall

theorem Source.leavesState_ofFile (path : String) : LeavesState (Source.ofFile path) :=
  ((Action.leavesState_openInput path).bind fun _ => .ofExcept _).within.bind fun _ => .pure _

theorem Source.leavesState_read (s : Source) : LeavesState s.read := by
  unfold Source.read
  split
  · exact (leavesState_openMember _ _).bind fun _ => .ofExcept _
  · exact MappingsFile.leavesState_read _

/-- `Source.getOrRead` leaves the files as they are. -/
theorem Source.respects_getOrRead (s : Source) (label : String) :
    Respects Action.SameFiles (s.getOrRead label) :=
  Action.respects_getOrCreate (s.leavesState_read.respects.bind fun _ => Action.respects_ofNoted _)

/-! ## Jars -/

namespace Jar

variable {jar : OpenArchive} {member : String} {bytes : ByteArray}

theorem leavesState_load (path : String) : LeavesState (load path) :=
  Action.leavesState_openArchive _ _ path

/-- What `member` reads depends on what the file of the archive holds, and on nothing else. -/
theorem runFrom_member (jar : OpenArchive) (member : String) :
    ∃ outcome : FileContent → Except Failure Input, ∀ host : Host,
      (jar.member member).runFrom host = (outcome (jar.currentContent host.files), host) := by
  -- a member that the archive does not list is not looked for in the file
  unfold OpenArchive.member
  split
  · exact ⟨fun _ => fail .memberNotFound, fun _ => rfl⟩
  · refine ⟨fun content =>
      (jar.listing.open? member content).elim (fail .notAnArchive) .ok, fun host => ?_⟩
    rw [runFrom_bind, runFrom_get]
    dsimp only
    cases jar.listing.open? member (jar.currentContent host.files) <;> rfl

/-- What `read?` reads of a member depends on what the file of the archive holds, and on nothing
else. -/
theorem runFrom_read? (jar : OpenArchive) (member : String) :
    ∃ outcome : FileContent → Except Failure (Option ByteArray), ∀ host : Host,
      (read? jar member).runFrom host = (outcome (jar.currentContent host.files), host) := by
  obtain ⟨outcome, houtcome⟩ := runFrom_member jar member
  unfold read?
  split
  · exact ⟨fun _ => .ok none, fun _ => rfl⟩
  · refine ⟨fun content => within (.openMember member jar.path) (outcome content) >>= fun input =>
      some <$> within (.readMember member jar.path) input.all, fun host => ?_⟩
    rw [runFrom_bind, runFrom_within, houtcome]
    dsimp only
    cases outcome (jar.currentContent host.files) with
    | error failure => rfl
    | ok input =>
      rw [within_ok, ok_bind]
      dsimp only
      cases within (.readMember member jar.path) input.all <;> rfl

theorem leavesState_read? (jar : OpenArchive) (member : String) :
    LeavesState (read? jar member) := by
  obtain ⟨outcome, houtcome⟩ := runFrom_read? jar member
  intro host
  rw [houtcome]

/-- `load` opens a jar with what its file holds. -/
theorem runFrom_load_eq_ok_iff : (load path).runFrom host = (.ok jar, host') ↔
    (∃ isExecutable, host.files.find path = .ok (.file jar.content isExecutable)) ∧
      host.files.locate path = .ok jar.location ∧ jar.content.listing? = some jar.listing ∧
      jar.path = path ∧ host' = host := by
  constructor
  · intro h
    rw [load, Action.openArchive, runFrom_bind_eq_ok_iff] at h
    obtain ⟨node, t, hfind, h⟩ := h
    rw [runFrom_within_eq_ok_iff, Action.runFrom_query_eq_ok_iff] at hfind
    obtain ⟨hfind, rfl⟩ := hfind
    rw [runFrom_bind_eq_ok_iff] at h
    obtain ⟨location, t', hlocate, h⟩ := h
    rw [runFrom_within_eq_ok_iff, Action.runFrom_query_eq_ok_iff] at hlocate
    obtain ⟨hlocate, rfl⟩ := hlocate
    -- an archive is a file whose content lists its members
    cases node with
    | directory => cases runFrom_within_eq_ok_iff.1 h
    | file content isExecutable =>
      dsimp only at h
      split at h
      · next listing hlisting =>
        cases h
        exact ⟨⟨isExecutable, hfind⟩, hlocate, hlisting, rfl, rfl⟩
      · cases runFrom_within_eq_ok_iff.1 h
  · rintro ⟨⟨isExecutable, hfind⟩, hlocate, hlisting, rfl, rfl⟩
    refine runFrom_bind_eq_ok_iff.2 ⟨_, _, runFrom_within_eq_ok_iff.2
      (Action.runFrom_query_eq_ok_iff.2 ⟨hfind, rfl⟩), ?_⟩
    refine runFrom_bind_eq_ok_iff.2 ⟨_, _, runFrom_within_eq_ok_iff.2
      (Action.runFrom_query_eq_ok_iff.2 ⟨hlocate, rfl⟩), ?_⟩
    dsimp only
    rw [hlisting]
    rfl

/-- Whether a jar can be opened and has a `member` that holds the given `bytes`. -/
def Holds (host : Host) (path member : String) (bytes : ByteArray) : Prop :=
  ((do read? (← load path) member : Action (Option ByteArray)).runFrom host).1 = .ok (some bytes)

instance (host : Host) (path member : String) (bytes : ByteArray) :
    Decidable (Holds host path member bytes) :=
  inferInstanceAs (Decidable (_ = _))

theorem holds_iff : Holds host path member bytes ↔
    ∃ jar, (load path).runFrom host = (.ok jar, host) ∧
      (read? jar member).runFrom host = (.ok (some bytes), host) := by
  have hleaves : LeavesState (do read? (← load path) member : Action (Option ByteArray)) :=
    (leavesState_load path).bind fun jar => leavesState_read? jar member
  constructor
  · intro h
    obtain ⟨jar, t, hload, hread⟩ := runFrom_bind_eq_ok_iff.1 (Prod.ext h (hleaves host))
    obtain rfl := (leavesState_load path).eq_of_ok hload
    exact ⟨jar, hload, hread⟩
  · rintro ⟨jar, hload, hread⟩
    exact congrArg Prod.fst (runFrom_bind_eq_ok_iff.2 ⟨jar, host, hload, hread⟩)

/-- What a jar `Holds` it still holds when files were added. -/
theorem Holds.of_grows {places : List Location} (h : Holds host path member bytes)
    (hgrows : host.files.Grows places host'.files) : Holds host' path member bytes := by
  obtain ⟨jar, hload, hread⟩ := holds_iff.1 h
  obtain ⟨⟨isExecutable, hfind⟩, hlocate, hlisting, hpath, -⟩ := runFrom_load_eq_ok_iff.1 hload
  have hload' : (load path).runFrom host' = (.ok jar, host') :=
    runFrom_load_eq_ok_iff.2
      ⟨⟨isExecutable, hgrows.find hfind⟩, hgrows.locate hlocate, hlisting, hpath, rfl⟩
  -- the file of the jar is where it was, so its content is that from before
  have hcurrent : jar.currentContent host'.files = jar.currentContent host.files := by
    obtain ⟨location, hlocate', hnode⟩ := bind_eq_ok_iff.1 hfind
    obtain rfl := Except.ok.inj (hlocate'.symm.trans hlocate)
    cases hnode' : host.files.node? jar.location with
    | none =>
      rw [hnode'] at hnode
      cases hnode
    | some node =>
      rw [OpenArchive.currentContent, OpenArchive.currentContent, hnode', hgrows.kept _ _ hnode']
  obtain ⟨outcome, houtcome⟩ := runFrom_read? jar member
  refine holds_iff.2 ⟨jar, hload', ?_⟩
  rw [houtcome, Prod.mk.injEq] at hread ⊢
  exact ⟨hcurrent ▸ hread.1, rfl⟩

/-- What `extract` takes out of a jar is written to a file. -/
theorem exists_write_of_runFrom_extract {target : String}
    (h : (extract jar member target).runFrom host = (.ok true, host')) :
    ∃ bytes, (Action.write target (.bytes bytes)).runFrom host = (.ok (), host') := by
  obtain ⟨bytes?, t, hread, h⟩ := runFrom_bind_eq_ok_iff.1 h
  obtain rfl := (leavesState_read? jar member).eq_of_ok hread
  cases bytes? with
  | none => cases h
  | some bytes =>
    obtain ⟨_, t', hwrite, h⟩ := runFrom_bind_eq_ok_iff.1 h
    cases h
    exact ⟨bytes, runFrom_within_eq_ok_iff.1 hwrite⟩

/-- What `extract` takes out of a jar is what `read?` reads from it. -/
theorem runFrom_extract_eq_ok {target : String}
    (h : (extract jar member target).runFrom host = (.ok true, host'))
    (hread : (read? jar member).runFrom host = (.ok (some bytes), host)) :
    (Action.write target (.bytes bytes)).runFrom host = (.ok (), host') := by
  rw [extract, runFrom_bind, hread] at h
  dsimp only at h
  rw [runFrom_bind_eq_ok_iff] at h
  obtain ⟨u, t, hwrite, h⟩ := h
  cases h
  exact runFrom_within_eq_ok_iff.1 hwrite

end Jar

end MappingTables
