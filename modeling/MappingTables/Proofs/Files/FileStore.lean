import MappingTables.Proofs.Files.Changes

/-!
# Files that are added

* `Grows`: whether a file store is like another one, but for what was added at some places.
* `Vacant`: whether nothing is where a path leads.
* `grows_createDirectories`, `grows_of_write`: directories are made, and a file is written where
  nothing was.
-/

namespace MappingTables.FileStore

variable {fs fs' fs'' : FileStore} {path : String} {place location : Location}

/-- `walk` can still go where it could if all directories are still there. -/
theorem walk_of_directories {parts : List String}
    (h : ∀ place, fs.node? place = some .directory → fs'.node? place = some .directory)
    (hwalk : fs.walk place parts = .ok location) : fs'.walk place parts = .ok location := by
  induction parts generalizing place with
  | nil => exact hwalk
  | cons part parts ih =>
    rw [walk, bind_eq_ok_iff] at hwalk ⊢
    obtain ⟨u, hdirectory, hwalk⟩ := hwalk
    refine ⟨u, ?_, ?_⟩
    -- a part of the way was a directory, and directories stay
    · rw [requireDirectory] at hdirectory ⊢
      split at hdirectory
      · next hnode => rw [h place hnode]
      · cases hdirectory
      · cases hdirectory
    · split at hwalk
      · cases hwalk
      · next hlength =>
        rw [if_neg hlength]
        exact ih hwalk

/-! ## Growing -/

/-- Whether one store holds all that another one holds, and what it holds beside that is at some
`places` only. -/
structure Grows (places : List Location) (fs fs' : FileStore) : Prop where
  working : fs'.workingDirectory = fs.workingDirectory
  interrupts : fs'.interrupts = fs.interrupts
  kept : ∀ place node, fs.node? place = some node → fs'.node? place = some node
  elsewhere : ∀ place, place ∉ places → fs'.node? place = fs.node? place

namespace Grows

variable {places places' : List Location}

theorem refl (places : List Location) (fs : FileStore) : Grows places fs fs :=
  ⟨rfl, rfl, fun _ _ => id, fun _ _ => rfl⟩

theorem of_eq (h : fs' = fs) : Grows [] fs fs' :=
  h ▸ refl [] fs

theorem trans (h : Grows places fs fs') (h' : Grows places' fs' fs'') :
    Grows (places ++ places') fs fs'' := by
  refine ⟨h'.working.trans h.working, h'.interrupts.trans h.interrupts,
    fun place node hnode => ?_, fun place hplace => ?_⟩
  · exact h'.kept place node (h.kept place node hnode)
  · rw [List.mem_append, not_or] at hplace
    rw [h'.elsewhere place hplace.2, h.elsewhere place hplace.1]

theorem mono (h : Grows places fs fs') (hsub : places ⊆ places') : Grows places' fs fs' :=
  ⟨h.working, h.interrupts, h.kept, fun place hplace => h.elsewhere place fun hmem =>
    hplace (hsub hmem)⟩

theorem target_eq (h : Grows places fs fs') (path : String) : fs'.target path = fs.target path := by
  rw [target, target, origin, origin, h.working]

theorem walk {parts : List String} (h : Grows places fs fs')
    (hwalk : fs.walk place parts = .ok location) : fs'.walk place parts = .ok location :=
  walk_of_directories (fun place => h.kept place .directory) hwalk

theorem locate (h : Grows places fs fs') (hlocate : fs.locate path = .ok location) :
    fs'.locate path = .ok location := by
  obtain ⟨u, hcheck, hwalk⟩ := bind_eq_ok_iff.1 hlocate
  refine bind_eq_ok_iff.2 ⟨u, hcheck, ?_⟩
  rw [origin, h.working]
  exact h.walk hwalk

/-- What `find` found it still finds when the store `Grows`. -/
theorem find {node : FileNode} (h : Grows places fs fs') (hfind : fs.find path = .ok node) :
    fs'.find path = .ok node := by
  obtain ⟨location, hlocate, hfind⟩ := bind_eq_ok_iff.1 hfind
  refine bind_eq_ok_iff.2 ⟨location, h.locate hlocate, ?_⟩
  cases hnode : fs.node? location with
  | none =>
    rw [hnode] at hfind
    cases hfind
  | some node' =>
    rw [hnode] at hfind
    rw [h.kept location node' hnode]
    exact hfind

/-- What `read` read it still reads when the store `Grows`. -/
theorem read {content : FileContent} (h : Grows places fs fs')
    (hread : fs.read path = .ok content) :
    fs'.read path = .ok content := by
  obtain ⟨node, hfind, hread⟩ := bind_eq_ok_iff.1 hread
  exact bind_eq_ok_iff.2 ⟨node, h.find hfind, hread⟩

end Grows

/-- A store `Grows` by what is `Confined` to places where nothing was. -/
theorem Confined.grows {inside : Location → Prop} {places places' : List Location}
    (h : Confined inside places fs fs')
    (hinside : ∀ place, inside place → fs.node? place = none ∧ place ∈ places')
    (hsub : places ⊆ places') : Grows places' fs fs' := by
  refine ⟨h.working, h.interrupts, fun place node hnode => ?_, fun place hplace => ?_⟩
  · have hout : ¬inside place := fun hin => by
      rw [(hinside place hin).1] at hnode
      cases hnode
    rcases h.outside place hout with heq | ⟨-, hnone, -⟩
    · exact heq.trans hnode
    · rw [hnone] at hnode
      cases hnode
  · exact h.node?_eq (fun hin => hplace (hinside place hin).2) fun hmem => hplace (hsub hmem)

/-- A store `Grows` by `createDirectories`, where a path leads and on the way there. -/
theorem grows_createDirectories (fs : FileStore) (path : String) :
    Grows ((path :: Path.ancestors path).map fs.target) fs (fs.createDirectories path).2 :=
  (confined_createDirectories fs path).grows nofun fun _ => id

/-! ## Places where nothing is -/

/-- Whether nothing is at the place where a `path` leads, nor below it, and the path does not lead
through there. -/
structure Vacant (fs : FileStore) (path : String) : Prop where
  nodes : ∀ below, fs.node? (fs.target path ++ below) = none
  way : ∀ above ∈ Path.ancestors path, ∀ name below,
    fs.target above ≠ fs.target path ++ name :: below

/-- A path is `Vacant` if neither the files nor the directories of the store are there. -/
theorem vacant_iff : fs.Vacant path ↔ ¬fs.target path <+: fs.workingDirectory ∧
    (∀ e ∈ fs.nodes.entries, ¬fs.target path <+: e.1) ∧
    ∀ above ∈ Path.ancestors path, fs.target path <+: fs.target above →
      fs.target above = fs.target path := by
  -- the working directory and those above it are there without being listed
  have hnode : ∀ place, fs.node? place = none ↔
      ¬place <+: fs.workingDirectory ∧ place ∉ fs.nodes.keys := by
    intro place
    by_cases h : place <+: fs.workingDirectory
    · simp [node?_of_above h, h]
    · rw [node?_of_not_above h, OrderedMap.get?_eq_none_iff]
      exact ⟨fun hkeys => ⟨h, hkeys⟩, And.right⟩
  constructor
  · intro h
    refine ⟨?_, fun e he hprefix => ?_, fun above habove hprefix => ?_⟩
    · have := ((hnode _).1 (h.nodes [])).1
      simpa using this
    · obtain ⟨below, hbelow⟩ := hprefix
      exact ((hnode _).1 (h.nodes below)).2 (hbelow ▸ OrderedMap.mem_keys_of_mem he)
    · obtain ⟨below, hbelow⟩ := hprefix
      cases below with
      | nil => exact hbelow.symm.trans (List.append_nil _)
      | cons name below => exact absurd hbelow.symm (h.way above habove name below)
  · rintro ⟨hworking, hnodes, hway⟩
    refine ⟨fun below => (hnode _).2 ⟨fun hprefix => ?_, fun hmem => ?_⟩,
      fun above habove name below heq => ?_⟩
    · exact hworking ((List.prefix_append _ below).trans hprefix)
    · obtain ⟨node, hmem⟩ := OrderedMap.mem_keys_iff.1 hmem
      exact hnodes _ hmem (List.prefix_append _ below)
    · have hsame := hway above habove (heq ▸ List.prefix_append _ _)
      rw [heq] at hsame
      simpa using congrArg List.length hsame

instance (fs : FileStore) (path : String) : Decidable (fs.Vacant path) :=
  decidable_of_iff _ vacant_iff.symm

/-- The directories that are made for a path that is `Vacant` do not stand in the place of files in
it. -/
theorem Vacant.not_mem_targets (h : fs.Vacant path) (name : String) :
    fs.target path ++ [name] ∉ (path :: Path.ancestors path).map fs.target := by
  rw [List.map_cons, List.mem_cons, List.mem_map, not_or, not_exists]
  refine ⟨by simp, fun above hmem => ?_⟩
  exact h.way above hmem.1 name [] hmem.2

theorem isPresent_eq_false (h : fs.node? (fs.target path) = none) : fs.isPresent path = false := by
  have hfind : ∀ node, fs.find path ≠ .ok node := by
    intro node hfind
    obtain ⟨location, hlocate, hfind⟩ := bind_eq_ok_iff.1 hfind
    rw [locate_eq_ok hlocate, h] at hfind
    cases hfind
  rw [isPresent]
  cases hresult : fs.find path with
  | error e => rfl
  | ok node => exact absurd hresult (hfind node)

/-- A file that `removeFile` removed is gone. -/
theorem isPresent_of_removeFile (h : fs.removeFile path = .ok fs') :
    fs'.isPresent path = false := by
  obtain ⟨node, hfind, h⟩ := bind_eq_ok_iff.1 h
  cases node with
  | directory => cases h
  | file content isExecutable =>
    obtain ⟨location, hlocate, h⟩ := bind_eq_ok_iff.1 h
    obtain rfl := locate_eq_ok hlocate
    cases h
    have hbegins : ¬fs.target path <+: fs.workingDirectory := by
      intro habove
      have hnode := (node?_of_find hfind).2
      rw [node?_of_above habove] at hnode
      cases hnode
    exact isPresent_eq_false (node?_filter_of_neg hbegins (decide_eq_false (not_not.2 rfl)))

/-- Something is in the place of a file that `isPresent`. -/
theorem node?_ne_none_of_isPresent {directory name : String} (hname : Path.IsName name)
    (h : fs.isPresent (Path.join directory name) = true) :
    fs.node? (fs.target directory ++ [name]) ≠ none := by
  intro hnone
  rw [← target_join hname] at hnone
  rw [isPresent_eq_false hnone] at h
  cases h

/-- A file that is not present although `write` can write it is not there at all. -/
theorem node?_of_write_of_not_isPresent {content : FileContent}
    (hpresent : fs.isPresent path = false)
    (h : fs.write path content = (.ok (), fs')) : fs.node? (fs.target path) = none := by
  obtain ⟨hopens, -, -⟩ := write_eq_ok h
  have hnode := hopens.node?_ne_directory
  rw [isPresent, find, hopens.locate] at hpresent
  dsimp only [bind, Except.bind] at hpresent
  cases hthere : fs.node? (fs.target path) with
  | none => rfl
  | some node =>
    rw [hthere] at hpresent hnode
    cases node with
    | directory => exact absurd rfl hnode
    | file content isExecutable =>
      simp [hopens.namesDirectory, Except.isOk, Except.toBool] at hpresent

/-- A file that `write` writes where nothing was is added, and can be read. -/
theorem grows_of_write {content : FileContent} (hvacant : fs.node? (fs.target path) = none)
    (h : fs.write path content = (.ok (), fs')) :
    Grows [fs.target path] fs fs' ∧ fs'.read path = .ok content := by
  have hgrows : Grows [fs.target path] fs fs' := by
    refine (confined_of_write h).grows (fun place hplace => ?_) (List.nil_subset _)
    exact ⟨hplace ▸ hvacant, List.mem_singleton.2 hplace⟩
  obtain ⟨hopens, -, -⟩ := write_eq_ok h
  obtain ⟨isExecutable, hnode⟩ := node?_of_write h
  rw [received_of_none hvacant] at hnode
  refine ⟨hgrows, bind_eq_ok_iff.2 ⟨.file content isExecutable, ?_, rfl⟩⟩
  refine bind_eq_ok_iff.2 ⟨fs.target path, hgrows.locate hopens.locate, ?_⟩
  rw [hnode]
  simp [hopens.namesDirectory]

/-- Whether there is nothing under some `names` in a `directory`. -/
def Free (fs : FileStore) (directory : String) (names : List String) : Prop :=
  ∀ name ∈ names, fs.node? (fs.target directory ++ [name]) = none

section Free

variable {directory name : String} {names : List String}

theorem Free.isPresent_eq_false (h : fs.Free directory names) (hmem : name ∈ names)
    (hname : Path.IsName name) : fs.isPresent (Path.join directory name) = false := by
  apply FileStore.isPresent_eq_false
  rw [target_join hname]
  exact h name hmem

/-- In a directory that is made where all was `Vacant`, all names are `Free`. -/
theorem Vacant.free (h : fs.Vacant directory)
    (hgrows : Grows ((directory :: Path.ancestors directory).map fs.target) fs fs')
    (names : List String) : fs'.Free directory names := by
  intro name _
  rw [hgrows.target_eq, hgrows.elsewhere _ (h.not_mem_targets name)]
  exact h.nodes [name]

/-- A file that `write` writes under a name that is `Free` is added, and the other names stay
free. -/
theorem Free.write {content : FileContent} (h : fs.Free directory (name :: names))
    (hname : Path.IsName name ∧ name ∉ names)
    (hwrite : fs.write (Path.join directory name) content = (.ok (), fs')) :
    Grows [fs.target directory ++ [name]] fs fs' ∧ fs'.Free directory names ∧
      fs'.read (Path.join directory name) = .ok content := by
  have htarget : fs.target (Path.join directory name) = fs.target directory ++ [name] :=
    target_join hname.1
  obtain ⟨hgrows, hread⟩ := grows_of_write (htarget ▸ h name List.mem_cons_self) hwrite
  rw [htarget] at hgrows
  refine ⟨hgrows, fun other hother => ?_, hread⟩
  have hne : fs.target directory ++ [other] ∉ [fs.target directory ++ [name]] := by
    rw [List.mem_singleton, List.append_cancel_left_eq, List.singleton_inj]
    rintro rfl
    exact hname.2 hother
  rw [hgrows.target_eq, hgrows.elsewhere _ hne]
  exact h other (List.mem_cons_of_mem name hother)

end Free

end MappingTables.FileStore
