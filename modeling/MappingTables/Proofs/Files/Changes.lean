import MappingTables.Files.FileStore
import MappingTables.Proofs.Files.Path
import MappingTables.Proofs.OrderedMap

/-!
# Changes of files

What an operation on a file store leaves alone. It has a place, or a region of places, in which it
may change anything; and it may make directories on the way there.

* `target`: where a path leads.
* `Confined`: whether one store is like another one, but for a region and for directories that were
  made.
* `Opens`, `write_eq_ok`, `write_eq_error`: what becomes of a file that is written.
* `confined_write`, `confined_of_removeFile`, `confined_createDirectories`,
  `confined_removeDirectory`: the regions of the operations.
-/

namespace MappingTables.FileStore

variable {fs fs' fs'' : FileStore} {path : String} {place location : Location}

/-! ## Where a path leads -/

/-- The location that a `path` leads to, if it leads through directories only. -/
def target (fs : FileStore) (path : String) : Location :=
  (Path.parts path).foldl enter (fs.origin path)

theorem walk_eq_ok {parts : List String} (h : fs.walk place parts = .ok location) :
    location = parts.foldl enter place := by
  induction parts generalizing place with
  | nil => exact (Except.ok.inj h).symm
  | cons part parts ih =>
    rw [walk, bind_eq_ok_iff] at h
    obtain ⟨-, -, h⟩ := h
    split at h
    · cases h
    · exact ih h

theorem locate_eq_ok (h : fs.locate path = .ok location) : location = fs.target path := by
  obtain ⟨-, -, h⟩ := bind_eq_ok_iff.1 h
  exact walk_eq_ok h

/-- The `target` of a file in a directory is one step below that of the directory. -/
theorem target_join {base name : String} (h : Path.IsName name) :
    fs.target (Path.join base name) = fs.target base ++ [name] := by
  have horigin : fs.origin (Path.join base name) = fs.origin base := by
    rw [origin, origin, Path.isAbsolute_join h]
  rw [target, Path.parts_join h, List.foldl_append, horigin]
  exact if_neg h.2.2.1

/-! ## What is at a location -/

/-- Whether there is a file at a `place`. -/
def IsFile (fs : FileStore) (place : Location) : Prop :=
  ∃ content isExecutable, fs.node? place = some (.file content isExecutable)

theorem not_isFile_of_none (h : fs.node? place = none) : ¬fs.IsFile place := by
  rintro ⟨content, isExecutable, hnode⟩
  rw [h] at hnode
  cases hnode

theorem not_isFile_of_directory (h : fs.node? place = some .directory) : ¬fs.IsFile place := by
  rintro ⟨content, isExecutable, hnode⟩
  rw [h] at hnode
  cases hnode

/-- The `workingDirectory`, at which relative paths start, is there, and so are those above it. -/
theorem node?_of_above (h : place <+: fs.workingDirectory) : fs.node? place = some .directory := by
  rw [node?, if_pos (List.isPrefixOf_iff_prefix.2 h)]

theorem node?_of_not_above (h : ¬place <+: fs.workingDirectory) :
    fs.node? place = fs.nodes.get? place := by
  rw [node?, if_neg fun hbegins => h (List.isPrefixOf_iff_prefix.1 hbegins)]

theorem node?_set_of_ne {node : FileNode} {other : Location} (h : other ≠ place) :
    (fs.set place node).node? other = fs.node? other := by
  rw [node?, node?, set]
  dsimp only
  rw [OrderedMap.get?_insert, if_neg h]

theorem node?_set_self {node : FileNode} (h : fs.node? place ≠ some .directory) :
    (fs.set place node).node? place = some node := by
  have hbegins : ¬place <+: fs.workingDirectory := fun hbegins => h (node?_of_above hbegins)
  rw [node?_of_not_above (by exact hbegins), set, OrderedMap.get?_insert, if_pos rfl]

theorem interrupts_set (fs : FileStore) (place : Location) (node : FileNode) :
    (fs.set place node).interrupts = fs.interrupts :=
  rfl

section Filter

variable {p : Location → Bool}

theorem node?_filter_of_pos (h : p place = true) :
    ({ fs with nodes := fs.nodes.filterKeys p } : FileStore).node? place = fs.node? place := by
  rw [node?, node?, OrderedMap.get?_filterKeys, if_pos h]

theorem node?_filter_of_neg (hbegins : ¬place <+: fs.workingDirectory) (h : p place = false) :
    ({ fs with nodes := fs.nodes.filterKeys p } : FileStore).node? place = none := by
  rw [node?_of_not_above (by exact hbegins), OrderedMap.get?_filterKeys, h]
  rfl

end Filter

/-- What `find` finds at a path is where it leads, at its `target`. -/
theorem node?_of_find {node : FileNode} (h : fs.find path = .ok node) :
    fs.locate path = .ok (fs.target path) ∧ fs.node? (fs.target path) = some node := by
  obtain ⟨location, hlocate, h⟩ := bind_eq_ok_iff.1 h
  obtain rfl := locate_eq_ok hlocate
  refine ⟨hlocate, ?_⟩
  cases hnode : fs.node? (fs.target path) with
  | none =>
    rw [hnode] at h
    cases h
  | some other =>
    rw [hnode] at h
    cases other with
    | directory => exact congrArg some (Except.ok.inj h)
    | file content isExecutable =>
      dsimp only at h
      split at h
      · cases h
      · exact congrArg some (Except.ok.inj h)

/-- What `read` reads at a path is in the file at its `target`. -/
theorem node?_of_read {content : FileContent} (h : fs.read path = .ok content) :
    ∃ isExecutable, fs.node? (fs.target path) = some (.file content isExecutable) := by
  obtain ⟨node, hfind, h⟩ := bind_eq_ok_iff.1 h
  cases node with
  | directory => cases h
  | file content' isExecutable =>
    cases h
    exact ⟨isExecutable, (node?_of_find hfind).2⟩

/-! ## What is left alone -/

/-- Whether one store is like another one, but for what is inside a region, and for directories at
some `places` where nothing was before. -/
structure Confined (inside : Location → Prop) (places : List Location) (fs fs' : FileStore) :
    Prop where
  working : fs'.workingDirectory = fs.workingDirectory
  interrupts : fs'.interrupts = fs.interrupts
  outside : ∀ place, ¬inside place → fs'.node? place = fs.node? place ∨
    place ∈ places ∧ fs.node? place = none ∧ fs'.node? place = some .directory

namespace Confined

variable {inside inside' : Location → Prop} {places places' : List Location}

theorem refl (inside : Location → Prop) (places : List Location) (fs : FileStore) :
    Confined inside places fs fs :=
  ⟨rfl, rfl, fun _ _ => .inl rfl⟩

theorem trans (h : Confined inside places fs fs') (h' : Confined inside places fs' fs'') :
    Confined inside places fs fs'' := by
  refine ⟨h'.working.trans h.working, h'.interrupts.trans h.interrupts, fun place hplace => ?_⟩
  rcases h.outside place hplace with heq | ⟨hmem, hnone, hnode⟩
  · rcases h'.outside place hplace with heq' | ⟨hmem', hnone', hnode'⟩
    · exact .inl (heq'.trans heq)
    · exact .inr ⟨hmem', heq ▸ hnone', hnode'⟩
  · -- a directory that was made stays
    rcases h'.outside place hplace with heq' | ⟨-, hnone', -⟩
    · exact .inr ⟨hmem, hnone, heq'.trans hnode⟩
    · rw [hnode] at hnone'
      cases hnone'

theorem mono (h : Confined inside places fs fs') (hinside : ∀ place, inside place → inside' place)
    (hsub : places ⊆ places') : Confined inside' places' fs fs' := by
  refine ⟨h.working, h.interrupts, fun place hplace => ?_⟩
  rcases h.outside place fun hin => hplace (hinside place hin) with heq | ⟨hmem, hnodes⟩
  · exact .inl heq
  · exact .inr ⟨hsub hmem, hnodes⟩

theorem target_eq (h : Confined inside places fs fs') (path : String) :
    fs'.target path = fs.target path := by
  rw [target, target, origin, origin, h.working]

/-- What is elsewhere than a change is `Confined` to is left alone. -/
theorem node?_eq (h : Confined inside places fs fs') (hinside : ¬inside place)
    (hplaces : place ∉ places) : fs'.node? place = fs.node? place :=
  (h.outside place hinside).resolve_right fun hmade => hplaces hmade.1

/-- A directory outside of what a change is `Confined` to stays. -/
theorem directory (h : Confined inside places fs fs') (hinside : ¬inside place)
    (hnode : fs.node? place = some .directory) : fs'.node? place = some .directory := by
  rcases h.outside place hinside with heq | ⟨-, -, hmade⟩
  · exact heq.trans hnode
  · exact hmade

/-- No file outside of what a change is `Confined` to is made, changed or removed. -/
theorem file_iff {content : FileContent} {isExecutable : Bool} (h : Confined inside places fs fs')
    (hinside : ¬inside place) : fs'.node? place = some (.file content isExecutable) ↔
      fs.node? place = some (.file content isExecutable) := by
  rcases h.outside place hinside with heq | ⟨-, hnone, hmade⟩
  · rw [heq]
  · simp [hnone, hmade]

theorem isFile_iff (h : Confined inside places fs fs') (hinside : ¬inside place) :
    fs'.IsFile place ↔ fs.IsFile place :=
  exists_congr fun _ => exists_congr fun _ => h.file_iff hinside

end Confined

theorem confined_set (fs : FileStore) (place : Location) (node : FileNode) :
    Confined (· = place) [] fs (fs.set place node) :=
  ⟨rfl, rfl, fun _ hother => .inl (node?_set_of_ne hother)⟩

/-! ## Files -/

/-- A content is `received` as it is where nothing was. -/
theorem received_of_none {content : FileContent} (h : fs.node? place = none) :
    fs.received place content = content := by
  rw [received, h]

/-- Whether the file at a `place` is a device that keeps nothing. -/
def IsSink (fs : FileStore) (place : Location) : Prop :=
  ∃ isExecutable, fs.node? place = some (.file .sink isExecutable)

theorem received_of_not_isSink (h : ¬fs.IsSink place) (content : FileContent) :
    fs.received place content = content := by
  rw [received]
  split
  · next old isExecutable hnode =>
    cases old with
    | sink => exact absurd ⟨isExecutable, hnode⟩ h
    | bytes | archive => rfl
  · rfl

theorem received_of_file {old : FileContent} {isExecutable : Bool}
    (h : fs.node? place = some (.file old isExecutable)) (content : FileContent) :
    fs.received place content = old.overwrittenBy content := by
  rw [received, h]

/-- `create` opens a file where its path leads, and nowhere where a directory is. -/
theorem create_eq_ok (h : fs.create path = .ok (place, fs')) :
    Path.namesDirectory path = false ∧ fs.locate path = .ok (fs.target path) ∧
      place = fs.target path ∧ fs.node? place ≠ some .directory ∧
      ∃ isExecutable, fs' = fs.set place
        (.file (fs.received place (.bytes .empty)) isExecutable) := by
  unfold create at h
  dsimp only at h
  by_cases hends : Path.endsWithSlash path = true ∧
      (!decide (Path.lastPiece? path = some ".")) = true
  · -- a path that ends with a slash cannot be that of a file
    rw [if_pos hends] at h
    obtain ⟨-, -, h⟩ := bind_eq_ok_iff.1 h
    cases h
  · rw [if_neg hends] at h
    obtain ⟨location, hlocate, h⟩ := bind_eq_ok_iff.1 h
    obtain rfl := locate_eq_ok hlocate
    have hname : Path.lastPiece? path ≠ some "." → Path.namesDirectory path = false := by
      intro hdot
      simp only [hdot, decide_false, Bool.not_false, and_true, Bool.not_eq_true] at hends
      simp [Path.namesDirectory, hends, hdot]
    cases hnode : fs.node? (fs.target path) with
    | none =>
      rw [hnode] at h
      dsimp only at h
      split at h
      · cases h
      · next hdot =>
        cases h
        exact ⟨hname (by simpa using hdot), hlocate, rfl, by rw [hnode]; nofun, false, rfl⟩
    | some node =>
      rw [hnode] at h
      cases node with
      | directory => cases h
      | file before isExecutable =>
        dsimp only at h
        split at h
        · cases h
        · next hdot =>
          cases h
          exact ⟨hname (by simpa using hdot), hlocate, rfl, by rw [hnode]; nofun, isExecutable, rfl⟩

/-- `hold` writes to what was opened, which then holds what it would hold if it had not been emptied
before. -/
theorem hold_set_received {isExecutable : Bool} (h : fs.node? place ≠ some .directory)
    (content : FileContent) :
    (fs.set place (.file (fs.received place (.bytes .empty)) isExecutable)).hold place content =
      fs.set place (.file (fs.received place content) isExecutable) := by
  have hreceived : (fs.received place (.bytes .empty)).overwrittenBy content =
      fs.received place content := by
    rw [received, received]
    cases fs.node? place with
    | none => rfl
    | some node =>
      cases node with
      | directory => rfl
      | file old isExecutable => cases old <;> rfl
  rw [hold, node?_set_self h]
  dsimp only
  rw [received_of_file (node?_set_self h), hreceived, set, set, set, OrderedMap.insert_insert]

/-- Whether the file at a `path` can be opened to be written to. -/
def Opens (fs : FileStore) (path : String) : Prop :=
  ∃ opened, fs.create path = .ok opened

namespace Opens

theorem namesDirectory (h : fs.Opens path) : Path.namesDirectory path = false :=
  (create_eq_ok h.choose_spec).1

theorem locate (h : fs.Opens path) : fs.locate path = .ok (fs.target path) :=
  (create_eq_ok h.choose_spec).2.1

theorem node?_ne_directory (h : fs.Opens path) : fs.node? (fs.target path) ≠ some .directory := by
  obtain ⟨⟨place, opened⟩, hcreate⟩ := h
  obtain ⟨-, -, rfl, hnode, -⟩ := create_eq_ok hcreate
  exact hnode

/-- A file that `Opens` holds the content when it is written, or what was `written` of that until it
was interrupted. -/
theorem write (h : fs.Opens path) (content : FileContent) : ∃ isExecutable,
    fs.write path content =
      match fs.interrupts (fs.target path) content with
      | none => (.ok (), fs.set (fs.target path)
          (.file (fs.received (fs.target path) content) isExecutable))
      | some interruption => (.error interruption.error, fs.set (fs.target path)
          (.file (fs.received (fs.target path) interruption.written) isExecutable)) := by
  obtain ⟨⟨place, opened⟩, hcreate⟩ := h
  obtain ⟨-, -, rfl, hnode, isExecutable, rfl⟩ := create_eq_ok hcreate
  refine ⟨isExecutable, ?_⟩
  rw [FileStore.write, hcreate]
  dsimp only
  rw [fill, interrupts_set]
  cases fs.interrupts (fs.target path) content with
  | none => exact congrArg _ (hold_set_received hnode content)
  | some interruption => exact congrArg _ (hold_set_received hnode interruption.written)

end Opens

/-- `write` changes nothing if the file cannot be opened. -/
theorem write_of_not_opens (h : ¬fs.Opens path) (content : FileContent) :
    ∃ e, fs.write path content = (.error e, fs) := by
  rw [write]
  cases hcreate : fs.create path with
  | error e => exact ⟨e, rfl⟩
  | ok opened => exact absurd ⟨opened, hcreate⟩ h

/-- Whatever comes of `write`, nothing else changes, and what is there then is a file. -/
theorem write_snd (fs : FileStore) (path : String) (content : FileContent) :
    (fs.write path content).2 = fs ∨ fs.node? (fs.target path) ≠ some .directory ∧
      ∃ written isExecutable,
        (fs.write path content).2 = fs.set (fs.target path) (.file written isExecutable) := by
  by_cases hopens : fs.Opens path
  · obtain ⟨isExecutable, hwrite⟩ := hopens.write content
    refine .inr ⟨hopens.node?_ne_directory, ?_⟩
    rw [hwrite]
    cases fs.interrupts (fs.target path) content with
    | none => exact ⟨_, isExecutable, rfl⟩
    | some interruption => exact ⟨_, isExecutable, rfl⟩
  · obtain ⟨e, hwrite⟩ := write_of_not_opens hopens content
    exact .inl (by rw [hwrite])

/-- What `write` wrote was opened, and nothing `interrupts` that. -/
theorem write_eq_ok {content : FileContent} (h : fs.write path content = (.ok (), fs')) :
    fs.Opens path ∧ fs.interrupts (fs.target path) content = none ∧ ∃ isExecutable,
      fs' =
        fs.set (fs.target path) (.file (fs.received (fs.target path) content) isExecutable) := by
  by_cases hopens : fs.Opens path
  · obtain ⟨isExecutable, hwrite⟩ := hopens.write content
    rw [hwrite] at h
    cases hinterrupts : fs.interrupts (fs.target path) content with
    | none =>
      rw [hinterrupts, Prod.mk.injEq] at h
      exact ⟨hopens, rfl, isExecutable, h.2.symm⟩
    | some interruption =>
      rw [hinterrupts] at h
      cases h
  · obtain ⟨e, hwrite⟩ := write_of_not_opens hopens content
    cases hwrite.symm.trans h

/-- A file that `write` fails to write either cannot be opened, so that nothing changes, or holds
what was `written` of the content until that was interrupted. -/
theorem write_eq_error {content : FileContent} {e : SystemError}
    (h : fs.write path content = (.error e, fs')) :
    ¬fs.Opens path ∧ fs' = fs ∨ ∃ interruption, fs.Opens path ∧
      fs.interrupts (fs.target path) content = some interruption ∧ ∃ isExecutable,
        fs' = fs.set (fs.target path)
          (.file (fs.received (fs.target path) interruption.written) isExecutable) := by
  by_cases hopens : fs.Opens path
  · obtain ⟨isExecutable, hwrite⟩ := hopens.write content
    rw [hwrite] at h
    -- once the file is open, only an interruption makes the write fail
    cases hinterrupts : fs.interrupts (fs.target path) content with
    | none =>
      rw [hinterrupts] at h
      cases h
    | some interruption =>
      rw [hinterrupts, Prod.mk.injEq] at h
      exact .inr ⟨interruption, hopens, rfl, isExecutable, h.2.symm⟩
  · obtain ⟨e', hwrite⟩ := write_of_not_opens hopens content
    rw [hwrite, Prod.mk.injEq] at h
    exact .inl ⟨hopens, h.2.symm⟩

/-- `write` succeeds exactly if the file `Opens` and nothing `interrupts` that. -/
theorem exists_write_eq_ok_iff {content : FileContent} :
    (∃ fs', fs.write path content = (.ok (), fs')) ↔
      fs.Opens path ∧ fs.interrupts (fs.target path) content = none := by
  constructor
  · rintro ⟨fs', h⟩
    obtain ⟨hopens, hnone, -⟩ := write_eq_ok h
    exact ⟨hopens, hnone⟩
  · rintro ⟨hopens, hnone⟩
    obtain ⟨isExecutable, hwrite⟩ := hopens.write content
    rw [hnone] at hwrite
    exact ⟨_, hwrite⟩

theorem confined_write (fs : FileStore) (path : String) (content : FileContent) :
    Confined (· = fs.target path) [] fs (fs.write path content).2 := by
  obtain hsame | ⟨-, written, isExecutable, hset⟩ := write_snd fs path content
  · rw [hsame]
    exact .refl _ _ fs
  · rw [hset]
    exact confined_set fs _ _

theorem confined_of_write {content : FileContent} (h : fs.write path content = (.ok (), fs')) :
    Confined (· = fs.target path) [] fs fs' := by
  have hconfined := confined_write fs path content
  rwa [h] at hconfined

/-- What `write` wrote is there, unless the file keeps nothing. -/
theorem node?_of_write {content : FileContent} (h : fs.write path content = (.ok (), fs')) :
    ∃ isExecutable, fs'.node? (fs.target path) =
      some (.file (fs.received (fs.target path) content) isExecutable) := by
  obtain ⟨hopens, -, isExecutable, rfl⟩ := write_eq_ok h
  exact ⟨isExecutable, node?_set_self hopens.node?_ne_directory⟩

theorem confined_of_removeFile (h : fs.removeFile path = .ok fs') :
    Confined (· = fs.target path) [] fs fs' := by
  obtain ⟨node, -, h⟩ := bind_eq_ok_iff.1 h
  cases node with
  | directory => cases h
  | file content isExecutable =>
    obtain ⟨location, hlocate, h⟩ := bind_eq_ok_iff.1 h
    obtain rfl := locate_eq_ok hlocate
    cases h
    exact ⟨rfl, rfl, fun place hplace => .inl (node?_filter_of_pos (decide_eq_true hplace))⟩

/-! ## Directories -/

theorem confined_of_createDirectory (h : fs.createDirectory path = .ok fs') :
    Confined (fun _ => False) [fs.target path] fs fs' := by
  obtain ⟨location, hlocate, h⟩ := bind_eq_ok_iff.1 h
  obtain rfl := locate_eq_ok hlocate
  split at h
  · cases h
  · cases h
  · next hnode =>
    split at h
    · cases h
    · cases h
      refine ⟨rfl, rfl, fun place _ => ?_⟩
      by_cases hplace : place = fs.target path
      · subst hplace
        exact .inr ⟨List.mem_singleton_self _, hnode, node?_set_self (by rw [hnode]; nofun)⟩
      · exact .inl (node?_set_of_ne hplace)

/-- `createAll` makes directories where the paths lead, which stay if others cannot be made. -/
theorem confined_createAll (fs : FileStore) (paths : List String) :
    Confined (fun _ => False) (paths.map fs.target) fs (fs.createAll paths).2 := by
  induction paths generalizing fs with
  | nil => exact .refl _ _ fs
  | cons path above ih =>
    -- made at once, or after those above it
    have hfirst : ∀ {fs' : FileStore}, fs.createDirectory path = .ok fs' →
        Confined (fun _ => False) ((path :: above).map fs.target) fs fs' := fun h =>
      (confined_of_createDirectory h).mono (fun _ => id) (by simp)
    have habove : ∀ {outcome fs'}, fs.createAll above = (outcome, fs') →
        Confined (fun _ => False) ((path :: above).map fs.target) fs fs' := by
      intro outcome fs' h
      have hconfined := ih fs
      rw [h] at hconfined
      exact hconfined.mono (fun _ => id) (by simp)
    rw [createAll]
    split
    · next fs' hcreated => exact hfirst hcreated
    · split
      · next e fs' h => exact habove h
      · next fs' h =>
        have hconfined := habove h
        -- the directory itself is tried once more below those above it
        split
        · next fs'' hcreated =>
          have hlast := confined_of_createDirectory hcreated
          rw [hconfined.target_eq] at hlast
          exact hconfined.trans (hlast.mono (fun _ => id) (by simp))
        · exact hconfined
    · exact .refl _ _ fs

/-- `createDirectories` makes directories where a path leads and on the way there. -/
theorem confined_createDirectories (fs : FileStore) (path : String) :
    Confined (fun _ => False) ((path :: Path.ancestors path).map fs.target) fs
      (fs.createDirectories path).2 := by
  rw [createDirectories]
  split
  · exact .refl _ _ fs
  · exact confined_createAll fs _

/-- What is not below a directory stays when that is `emptied`, and so does the directory. -/
theorem confined_emptied (fs : FileStore) (location : Location) :
    Confined (fun place => ∃ name below, place = location ++ name :: below) [] fs
      (fs.emptied location) := by
  refine ⟨rfl, rfl, fun place hplace => .inl (node?_filter_of_pos ?_)⟩
  by_cases hbegins : location <+: place
  · obtain ⟨below, rfl⟩ := hbegins
    cases below with
    | nil => simp
    | cons name below => exact absurd ⟨name, below, rfl⟩ hplace
  · have hbegins : location.isPrefixOf place = false :=
      Bool.eq_false_iff.2 fun h => hbegins (List.isPrefixOf_iff_prefix.1 h)
    rw [hbegins]
    rfl

/-- `removeDirectory` removes nothing but what is in a directory, and the directory itself. -/
theorem confined_removeDirectory (fs : FileStore) (path : String) :
    Confined (fs.target path <+: ·) [] fs (fs.removeDirectory path).2 := by
  have hemptied : Confined (fs.target path <+: ·) [] fs (fs.emptied (fs.target path)) := by
    refine (fs.confined_emptied _).mono ?_ fun _ => id
    rintro place ⟨name, below, rfl⟩
    exact List.prefix_append _ _
  -- whatever else fails, nothing but the directory and what is below it can go
  unfold removeDirectory
  split
  · next location hfind hlocate =>
    obtain rfl := locate_eq_ok hlocate
    dsimp only
    split
    · exact hemptied
    · split
      · exact hemptied
      · refine hemptied.trans ⟨rfl, rfl, fun place hplace => .inl (node?_filter_of_pos ?_)⟩
        exact decide_eq_true fun heq => hplace (heq ▸ List.prefix_rfl)
  · exact .refl _ _ fs
  · exact .refl _ _ fs

end MappingTables.FileStore
