import MappingTables.Proofs.Files.Agreement

/-!
# Changes that are made again

Making a directory that is there or writing to a file what is in it changes nothing. A directory
that is removed and made again is there as before, without what was in it.

* `node?_of_find_of_ne`: what is found is reached through directories.
* `createDirectories_of_find`, `Keeps.exists_write`: what is as it is to be is left alone.
* `read_of_write`: what was written is read.
* `createDirectories_removeDirectory`: removing a directory and making it again empties it.
-/

namespace MappingTables.FileStore

variable {fs fs' : FileStore} {path : String} {place location : Location} {content : FileContent}

/-! ## Ways of what is found -/

/-- `walk` comes through directories, each of which has a name that is not too long. -/
theorem of_walk_eq_ok {parts : List String} (h : fs.walk place parts = .ok location) :
    (∀ before, before <+: parts → before ≠ parts →
      fs.node? (before.foldl enter place) = some .directory) ∧
    ∀ part ∈ parts, part.utf8ByteSize ≤ longestPart := by
  induction parts generalizing place with
  | nil => exact ⟨fun before hbefore hne => absurd (List.prefix_nil.1 hbefore) hne, nofun⟩
  | cons part parts ih =>
    rw [walk] at h
    obtain ⟨u, hdirectory, h⟩ := bind_eq_ok_iff.1 h
    rw [requireDirectory] at hdirectory
    -- each part is looked up in a directory, and none is too long
    split at hdirectory
    · next hnode =>
      split at h
      · cases h
      · next hshort =>
        obtain ⟨hdirectories, hparts⟩ := ih h
        refine ⟨fun before hbefore hne => ?_, List.forall_mem_cons.2 ⟨Nat.not_lt.1 hshort, hparts⟩⟩
        cases before with
        | nil => exact hnode
        | cons first before =>
          obtain ⟨rfl, hrest⟩ := List.cons_prefix_cons.1 hbefore
          exact hdirectories before hrest fun heq => hne (heq ▸ rfl)
    · cases hdirectory
    · cases hdirectory

/-- What `find` finds is reached through directories. -/
theorem node?_of_find_of_ne {node : FileNode} (h : fs.find path = .ok node) :
    ∀ place ∈ trail fs.workingDirectory path, place ≠ fs.target path →
      fs.node? place = some .directory := by
  obtain ⟨hlocate, -⟩ := node?_of_find h
  obtain ⟨u, -, hwalk⟩ := bind_eq_ok_iff.1 hlocate
  intro place hplace hne
  obtain ⟨before, hbefore, rfl⟩ := mem_trail_iff.1 hplace
  exact (of_walk_eq_ok hwalk).1 before hbefore fun heq => hne (heq ▸ rfl)

theorem directories_of_find (h : fs.find path = .ok .directory) :
    ∀ place ∈ trail fs.workingDirectory path, fs.node? place = some .directory := by
  intro place hplace
  by_cases heq : place = fs.target path
  · rw [heq, (node?_of_find h).2]
  · exact node?_of_find_of_ne h place hplace heq

/-- Something is at every place on the `trail` to what is found. -/
theorem node?_ne_none_of_find {node : FileNode} (h : fs.find path = .ok node) :
    ∀ place ∈ trail fs.workingDirectory path, fs.node? place ≠ none := by
  intro place hplace
  by_cases heq : place = fs.target path
  · rw [heq, (node?_of_find h).2]
    nofun
  · rw [node?_of_find_of_ne h place hplace heq]
    nofun

/-- When a store `Grows`, the way to what was found before does not change. -/
theorem Grows.agreeIn {places : List Location} {node : FileNode} (h : Grows places fs fs')
    (hfind : fs.find path = .ok node) :
    fs.AgreeIn (.along fs.workingDirectory path) fs' := by
  refine ⟨rfl, h.working, h.interrupts, fun place hplace => ?_⟩
  obtain ⟨node, hnode⟩ := Option.ne_none_iff_exists'.1 (node?_ne_none_of_find hfind place hplace)
  rw [hnode, h.kept place node hnode]

/-- If `write` can write a file in a directory then the directory is found. -/
theorem find_of_write_join {base name : String} (hname : Path.IsName name) (hbase : base ≠ "")
    (h : fs.write (Path.join base name) content = (.ok (), fs')) :
    fs.find base = .ok .directory := by
  have hlocate := (write_eq_ok h).1.locate
  obtain ⟨u, hcheck, hwalk⟩ := bind_eq_ok_iff.1 hlocate
  rw [Path.parts_join hname, origin, Path.isAbsolute_join hname, walk_concat] at hwalk
  obtain ⟨location, hwalk, hlast⟩ := bind_eq_ok_iff.1 hwalk
  obtain ⟨u, hdirectory, -⟩ := bind_eq_ok_iff.1 hlast
  obtain rfl := walk_eq_ok hwalk
  -- the path of the directory is the first part of that of the file
  have hcheckBase : checkPath base = .ok () := by
    obtain ⟨hnul, -, hlong⟩ := checkPath_eq_ok_iff.1 hcheck
    have hjoin : ∃ rest, Path.join base name = base ++ rest := by
      rw [Path.join, if_neg (by simp [hname.not_isAbsolute])]
      split
      · exact ⟨name, rfl⟩
      · exact ⟨"/" ++ name, String.append_assoc⟩
    obtain ⟨rest, hrest⟩ := hjoin
    rw [hrest] at hnul hlong
    rw [String.utf8ByteSize_append] at hlong
    refine checkPath_eq_ok_iff.2 ⟨fun hmem => hnul ?_, hbase, by omega⟩
    rw [String.toList_append]
    exact List.mem_append_left _ hmem
  refine find_eq_directory_iff.2 ⟨bind_eq_ok_iff.2 ⟨(), hcheckBase, hwalk⟩, ?_⟩
  rw [requireDirectory] at hdirectory
  split at hdirectory
  · assumption
  · cases hdirectory
  · cases hdirectory

/-! ## What is as it is to be -/

/-- `createDirectories` does not make a directory again that is there. -/
theorem createDirectories_of_find (h : fs.find path = .ok .directory) :
    fs.createDirectories path = (.ok (), fs) := by
  rw [createDirectories]
  split
  · rfl
  · obtain ⟨hlocate, hnode⟩ := node?_of_find h
    have hcreate : fs.createDirectory path = .error .alreadyExists := by
      rw [createDirectory, hlocate]
      simp only [bind, Except.bind, hnode]
    rw [createAll, hcreate]
    simp only [isDirectory, h, if_true]

/-- Whether a file holds a `content`, and writing that to it is not interrupted. -/
structure Keeps (fs : FileStore) (path : String) (content : FileContent) : Prop where
  read : fs.read path = .ok content
  writable : fs.interrupts (fs.target path) content = none

theorem Keeps.of_agreeIn {v : View} (h : fs.Keeps path content) (hagree : fs.AgreeIn v fs')
    (hpath : v.Covers path) : fs'.Keeps path content where
  read := (hagree.read_eq hpath).trans h.read
  writable := by
    rw [hagree.interrupts, hagree.target_eq]
    exact h.writable

/-- `write` leaves everything as it is if the file `Keeps` what is written. -/
theorem Keeps.exists_write (h : fs.Keeps path content) :
    ∃ fs', fs.write path content = (.ok (), fs') ∧ fs.AgreeIn (.all fs.workingDirectory) fs' := by
  obtain ⟨hread, hwritable⟩ := h
  obtain ⟨node, hfind, h⟩ := bind_eq_ok_iff.1 hread
  cases node with
  | directory => cases h
  | file content' isExecutable =>
    cases h
    obtain ⟨hlocate, hnode⟩ := node?_of_find hfind
    -- a path that can only be that of a directory would not have led to a file
    have hname : Path.namesDirectory path = false := by
      rw [find, hlocate] at hfind
      simp only [bind, Except.bind, hnode] at hfind
      split at hfind
      · cases hfind
      · next hname => simpa using hname
    rw [Path.namesDirectory, Bool.or_eq_false_iff] at hname
    obtain ⟨hslash, hdot⟩ := hname
    have hcreate : fs.create path = .ok (fs.target path, fs.set (fs.target path)
        (.file (fs.received (fs.target path) (.bytes .empty)) isExecutable)) := by
      rw [create]
      simp only [hslash, Bool.false_eq_true, false_and, if_false, hlocate, bind, Except.bind, hnode,
        beq_eq_false_iff_ne.1 hdot, decide_false]
    have hself : fs.received (fs.target path) content = content := by
      rw [received_of_file hnode]
      cases content <;> rfl
    refine ⟨fs.set (fs.target path) (.file content isExecutable), ?_, rfl, rfl, rfl,
      fun place _ => ?_⟩
    · rw [write, hcreate]
      dsimp only
      rw [fill, interrupts_set, hwritable]
      dsimp only
      rw [hold_set_received (by simp [hnode]), hself]
    · by_cases hplace : place = fs.target path
      · rw [hplace, hnode]
        exact node?_set_self (by simp [hnode])
      · exact node?_set_of_ne hplace

/-- What a file that `Opens` is made to hold is read. -/
theorem Opens.read_set {isExecutable : Bool} (h : fs.Opens path) :
    (fs.set (fs.target path) (.file content isExecutable)).read path = .ok content := by
  obtain ⟨u, hcheck, hwalk⟩ := bind_eq_ok_iff.1 h.locate
  have hself : (fs.set (fs.target path) (.file content isExecutable)).node? (fs.target path) =
      some (.file content isExecutable) := node?_set_self h.node?_ne_directory
  -- all directories are still there
  have hkept : ∀ place, fs.node? place = some .directory →
      (fs.set (fs.target path) (.file content isExecutable)).node? place = some .directory := by
    intro place hplace
    rw [node?_set_of_ne, hplace]
    rintro rfl
    exact h.node?_ne_directory hplace
  have hwalk' := walk_of_directories hkept hwalk
  refine bind_eq_ok_iff.2 ⟨.file content isExecutable, ?_, rfl⟩
  refine bind_eq_ok_iff.2 ⟨fs.target path, bind_eq_ok_iff.2 ⟨u, hcheck, hwalk'⟩, ?_⟩
  rw [hself]
  simp [h.namesDirectory]

/-- What `write` wrote is read, unless the file keeps nothing. -/
theorem read_of_write (h : fs.write path content = (.ok (), fs')) :
    fs'.read path = .ok (fs.received (fs.target path) content) := by
  obtain ⟨hopens, -, isExecutable, rfl⟩ := write_eq_ok h
  exact hopens.read_set

/-- A file `Keeps` what `write` wrote where nothing was. -/
theorem keeps_of_write (hnone : fs.node? (fs.target path) = none)
    (h : fs.write path content = (.ok (), fs')) : fs'.Keeps path content where
  read := by rw [read_of_write h, received_of_none hnone]
  writable := by
    obtain ⟨-, hwritable, isExecutable, rfl⟩ := write_eq_ok h
    exact hwritable

/-! ## Removing a directory and making it again -/

/-- Where a directory is `emptied`, nothing changes but what is in it. -/
theorem agreeIn_emptied (fs : FileStore) (location : Location) :
    fs.AgreeIn (.around fs.workingDirectory location) (fs.emptied location) := by
  refine .of_confined (fs.confined_emptied location) rfl ?_
  rintro place hplace ⟨name, below, rfl⟩
  exact hplace ⟨List.prefix_append _ _, by simp⟩

theorem node?_emptied {name : String} {below : List String}
    (h : ¬location ++ name :: below <+: fs.workingDirectory) :
    (fs.emptied location).node? (location ++ name :: below) = none :=
  node?_filter_of_neg h (by simp)

/-- A directory in which nothing is is the same when it was `emptied`. -/
theorem agreeIn_emptied_of_nothing
    (h : ∀ name below, fs.node? (location ++ name :: below) = none) :
    fs.AgreeIn (.all fs.workingDirectory) (fs.emptied location) := by
  refine ⟨rfl, rfl, rfl, fun place _ => ?_⟩
  by_cases hinside : location <+: place ∧ place ≠ location
  · obtain ⟨⟨below, rfl⟩, hne⟩ := hinside
    cases below with
    | nil => exact absurd (List.append_nil _) hne
    | cons name below =>
      rw [h, node?_emptied fun habove => ?_]
      have hnone := h name below
      rw [node?_of_above habove] at hnone
      cases hnone
  · exact (fs.agreeIn_emptied location).node?_eq place hinside

theorem grows_of_agreeIn (h : fs.AgreeIn (.all fs.workingDirectory) fs') : Grows [] fs fs' :=
  ⟨h.working, h.interrupts, fun place _ hnode => (h.node?_eq place trivial).trans hnode,
    fun place _ => h.node?_eq place trivial⟩

theorem target_ancestor_mem_trail {above : String} (fs : FileStore)
    (h : above ∈ path :: Path.ancestors path) :
    fs.target above ∈ trail fs.workingDirectory path := by
  rcases List.mem_cons.1 h with rfl | h
  · exact fs.target_mem_trail above
  · exact trail_ancestor_subset h (fs.target_mem_trail above)

/-- Directories are made on the `trail` of the path. -/
theorem mem_trail_of_mem_targets
    (h : place ∈ (path :: Path.ancestors path).map fs.target) :
    place ∈ trail fs.workingDirectory path := by
  obtain ⟨above, habove, rfl⟩ := List.mem_map.1 h
  exact fs.target_ancestor_mem_trail habove

/-- `createDirectories` makes a directory that was removed again. -/
theorem createDirectories_of_removed (h : fs.find path = .ok .directory)
    (hname : Path.lastPiece? path ≠ some ".") {removed : FileStore}
    (hremoved : removed = { fs with nodes := fs.nodes.filterKeys (· ≠ fs.target path) }) :
    (removed.createDirectories path).1 = .ok () ∧
      fs.AgreeIn (.all fs.workingDirectory) (removed.createDirectories path).2 := by
  have hworking : removed.workingDirectory = fs.workingDirectory := by rw [hremoved]
  have htarget : ∀ path, removed.target path = fs.target path := by
    intro path
    rw [target, target, origin, origin, hworking]
  have hother : ∀ place, place ≠ fs.target path → removed.node? place = fs.node? place := by
    intro place hplace
    rw [hremoved, node?_filter_of_pos (by simpa using hplace)]
  have hdirectories := directories_of_find h
  by_cases hbegins : fs.target path <+: fs.workingDirectory
  · -- the directory at which relative paths start is always there
    have hsame : fs.AgreeIn (.all fs.workingDirectory) removed := by
      refine ⟨rfl, hworking, by rw [hremoved], fun place _ => ?_⟩
      by_cases hplace : place = fs.target path
      · rw [hplace, node?_of_above (hworking ▸ hbegins), node?_of_above hbegins]
      · exact hother place hplace
    have hfind : removed.find path = .ok .directory := by
      rw [hsame.find_eq (View.all_covers _ _), h]
    rw [createDirectories_of_find hfind]
    exact ⟨rfl, hsame⟩
  · have hnone : removed.node? (fs.target path) = none := by
      rw [hremoved, node?_filter_of_neg hbegins (by simp)]
    have hnamed : Path.IsNamed path := by
      refine ⟨fun hparts => hbegins ?_, hname⟩
      rw [target, hparts, origin]
      split
      · exact List.nil_prefix
      · exact List.prefix_rfl
    obtain ⟨u, hcheck, hwalk⟩ := bind_eq_ok_iff.1 (node?_of_find h).1
    -- no file is in the way: what is above the directory is as it was
    have haccessible : removed.Accessible path := by
      refine ⟨hcheck, (of_walk_eq_ok hwalk).2, fun above habove => ?_⟩
      rw [htarget]
      by_cases hplace : fs.target above = fs.target path
      · rw [hplace]
        exact not_isFile_of_none hnone
      · refine not_isFile_of_directory ((hother _ hplace).trans (hdirectories _ ?_))
        exact fs.target_ancestor_mem_trail (List.mem_cons_of_mem _ habove)
    obtain ⟨hok, hfind⟩ := haccessible.createDirectories hnamed
      (htarget path ▸ not_isFile_of_none hnone)
    have hconfined := removed.confined_createDirectories path
    refine ⟨hok, rfl, hconfined.working.trans hworking,
      hconfined.interrupts.trans (by rw [hremoved]), fun place _ => ?_⟩
    -- on the trail both have directories, and elsewhere nothing was made
    by_cases hplace : place ∈ trail fs.workingDirectory path
    · rw [hdirectories place hplace]
      refine directories_of_find hfind place ?_
      rwa [hconfined.working, hworking]
    · rw [hconfined.node?_eq not_false, hother]
      · rintro rfl
        exact hplace (fs.target_mem_trail path)
      · exact fun hmem => hplace (hworking ▸ mem_trail_of_mem_targets hmem)

/-- A directory that is removed by `removeDirectory` and made again by `createDirectories` is there
without what was in it, if its path does not lead through there. -/
theorem createDirectories_removeDirectory (h : fs.find path = .ok .directory)
    (hway : (View.around fs.workingDirectory (fs.target path)).Covers path) :
    ((fs.removeDirectory path).2.createDirectories path).1 = .ok () ∧
      (fs.emptied (fs.target path)).AgreeIn (.all fs.workingDirectory)
        ((fs.removeDirectory path).2.createDirectories path).2 := by
  have hempty : (fs.emptied (fs.target path)).find path = .ok .directory := by
    rw [(fs.agreeIn_emptied _).find_eq hway, h]
  have hisDirectory : (fs.emptied (fs.target path)).isDirectory path = true := by
    rw [isDirectory, hempty]
  rw [removeDirectory, h, (node?_of_find h).1]
  dsimp only
  rw [hisDirectory]
  simp only [Bool.not_true, Bool.false_eq_true, if_false]
  split
  · -- if it cannot be removed it stays
    rw [createDirectories_of_find hempty]
    exact ⟨rfl, .refl rfl⟩
  · next hname => exact createDirectories_of_removed hempty hname rfl

end MappingTables.FileStore
