import MappingTables.Proofs.Files.Ancestors
import MappingTables.Proofs.Files.FileStore

/-!
# Making and removing directories

Whoever makes a directory makes those above it first, as far as they are not there yet.

* `Accessible`: whether a directory can be made at a path.
* `Accessible.createDirectories`, `Accessible.removeDirectory`: making and removing such a directory
  succeeds.
* `isPresent_of_isFile`: a file that is in a directory can be found.
-/

namespace MappingTables

namespace FileStore

variable {fs fs' : FileStore} {fromRoot : Bool} {place : Location} {parts paths : List String}
  {part path : String}

/-! ## Walking -/

/-- Where the paths start that start at the root, if `fromRoot` says so, or those that do not. -/
def start (fs : FileStore) (fromRoot : Bool) : Location :=
  if fromRoot then [] else fs.workingDirectory

theorem node?_start (fs : FileStore) (fromRoot : Bool) :
    fs.node? (fs.start fromRoot) = some .directory := by
  apply node?_of_above
  cases fromRoot with
  | false => exact List.prefix_rfl
  | true => exact List.nil_prefix

theorem walk_concat (fs : FileStore) (place : Location) (parts : List String) (part : String) :
    fs.walk place (parts ++ [part]) = fs.walk place parts >>= fun location =>
      fs.requireDirectory location >>= fun _ =>
        if longestPart < part.utf8ByteSize then .error .nameTooLong
        else .ok (enter location part) := by
  induction parts generalizing place with
  | nil => rfl
  | cons first parts ih =>
    rw [List.cons_append, walk, walk]
    cases fs.requireDirectory place with
    | error e => rfl
    | ok u =>
      simp only [bind, Except.bind]
      split
      · rfl
      · exact ih _

/-- Whether `parts` lead from a `place` through directories to a directory. -/
structure Reaches (fs : FileStore) (place : Location) (parts : List String) : Prop where
  walk : fs.walk place parts = .ok (parts.foldl enter place)
  node : fs.node? (parts.foldl enter place) = some .directory

/-- `walk` can go on from a directory that it `Reaches`. -/
theorem Reaches.walk_concat (h : fs.Reaches place parts) (hpart : part.utf8ByteSize ≤ longestPart) :
    fs.walk place (parts ++ [part]) = .ok ((parts ++ [part]).foldl enter place) := by
  rw [FileStore.walk_concat, h.walk, List.foldl_concat]
  simp only [bind, Except.bind, requireDirectory, h.node]
  rw [if_neg (Nat.not_lt.2 hpart)]

theorem reaches_concat_iff (hpart : part.utf8ByteSize ≤ longestPart) :
    fs.Reaches place (parts ++ [part]) ↔ fs.Reaches place parts ∧
      fs.node? ((parts ++ [part]).foldl enter place) = some .directory := by
  constructor
  · intro h
    have hwalk := h.walk
    rw [walk_concat] at hwalk
    obtain ⟨location, hlocation, hwalk⟩ := bind_eq_ok_iff.1 hwalk
    obtain ⟨u, hdirectory, -⟩ := bind_eq_ok_iff.1 hwalk
    obtain rfl := walk_eq_ok hlocation
    refine ⟨⟨hlocation, ?_⟩, h.node⟩
    rw [requireDirectory] at hdirectory
    split at hdirectory
    · assumption
    · cases hdirectory
    · cases hdirectory
  · rintro ⟨h, hnode⟩
    exact ⟨h.walk_concat hpart, hnode⟩

theorem target_eq (hparts : Path.parts path = parts) (hroot : Path.isAbsolute path = fromRoot) :
    fs.target path = parts.foldl enter (fs.start fromRoot) := by
  rw [target, hparts, origin, hroot, start]

/-- `locate` can follow a path if its directory is reached. -/
theorem Reaches.locate (h : fs.Reaches (fs.start fromRoot) parts)
    (hparts : Path.parts path = parts ++ [part]) (hroot : Path.isAbsolute path = fromRoot)
    (hcheck : checkPath path = .ok ()) (hpart : part.utf8ByteSize ≤ longestPart) :
    fs.locate path = .ok (fs.target path) := by
  refine bind_eq_ok_iff.2 ⟨(), hcheck, ?_⟩
  rw [target_eq hparts hroot, hparts, origin, hroot]
  exact h.walk_concat hpart

/-! ## Ways -/

section Way

variable (hway : Path.IsWay fromRoot parts paths)
  (hshort : ∀ part ∈ parts, part.utf8ByteSize ≤ longestPart)

include hway hshort

/-- `Reaches` a directory holds exactly if all paths on the way are those of directories. -/
theorem reaches_iff : fs.Reaches (fs.start fromRoot) parts ↔
    ∀ path ∈ paths, fs.node? (fs.target path) = some .directory := by
  induction hway with
  | nil => exact ⟨nofun, fun _ => ⟨rfl, node?_start fs fromRoot⟩⟩
  | cons way hparts hroot hname ih =>
    rw [reaches_concat_iff (hshort _ (by simp)), ih fun part hpart => hshort part (by simp [hpart]),
      List.forall_mem_cons, target_eq hparts hroot]
    exact and_comm

/-- Where no file is on the way, `walk` finds nothing but what is reached. -/
theorem walk_notFound (hfile : ∀ path ∈ paths, ¬fs.IsFile (fs.target path))
    (hnot : ¬fs.Reaches (fs.start fromRoot) parts) :
    fs.walk (fs.start fromRoot) (parts ++ [part]) = .error .notFound := by
  induction hway generalizing part with
  | nil => exact absurd ⟨rfl, node?_start fs fromRoot⟩ hnot
  | @cons before above last path way hparts hroot hname ih =>
    have hbefore : ∀ p ∈ before, p.utf8ByteSize ≤ longestPart := fun p hp => hshort p (by simp [hp])
    have hlast := hshort last (by simp)
    rw [walk_concat]
    by_cases hreaches : fs.Reaches (fs.start fromRoot) before
    · -- the last directory is missing
      have hnone : fs.node? ((before ++ [last]).foldl enter (fs.start fromRoot)) = none := by
        have hpath := hfile path List.mem_cons_self
        rw [target_eq hparts hroot] at hpath
        cases hnode : fs.node? ((before ++ [last]).foldl enter (fs.start fromRoot)) with
        | none => rfl
        | some node =>
          cases node with
          | directory => exact absurd ((reaches_concat_iff hlast).2 ⟨hreaches, hnode⟩) hnot
          | file content isExecutable => exact absurd ⟨content, isExecutable, hnode⟩ hpath
      rw [hreaches.walk_concat hlast]
      simp only [bind, Except.bind, requireDirectory, hnone]
    · rw [ih hbefore (fun path hpath => hfile path (List.mem_cons_of_mem _ hpath)) hreaches]
      rfl

end Way

/-! ## Making directories -/

/-- `createDirectory` can make a directory where the one above it is, unless a file is there. It may
be there already. -/
theorem createDirectory_of_reaches (h : fs.Reaches (fs.start fromRoot) parts)
    (hparts : Path.parts path = parts ++ [part]) (hroot : Path.isAbsolute path = fromRoot)
    (hname : Path.lastPiece? path ≠ some ".") (hcheck : checkPath path = .ok ())
    (hpart : part.utf8ByteSize ≤ longestPart) (hfile : ¬fs.IsFile (fs.target path)) :
    ∃ fs', fs'.Reaches (fs'.start fromRoot) (parts ++ [part]) ∧
      (fs.createDirectory path = .ok fs' ∨ fs' = fs ∧ fs.isDirectory path = true ∧
        fs.createDirectory path = .error .alreadyExists) := by
  have hlocate := h.locate hparts hroot hcheck hpart
  have htarget : fs.target path = (parts ++ [part]).foldl enter (fs.start fromRoot) :=
    target_eq hparts hroot
  -- a missing directory is made, and one that is there is reported as such
  cases hnode : fs.node? (fs.target path) with
  | none =>
    have hcreate : fs.createDirectory path = .ok (fs.set (fs.target path) .directory) := by
      rw [createDirectory, hlocate]
      simp only [bind, Except.bind, hnode, hname]
      rfl
    have hgrows : Grows [fs.target path] fs (fs.set (fs.target path) .directory) :=
      (confined_of_createDirectory hcreate).grows nofun fun _ => id
    refine ⟨_, ⟨hgrows.walk (h.walk_concat hpart), ?_⟩, .inl hcreate⟩
    change (fs.set _ _).node? ((parts ++ [part]).foldl enter (fs.start fromRoot)) = _
    rw [← htarget]
    exact node?_set_self (by rw [hnode]; nofun)
  | some node =>
    cases node with
    | directory =>
      refine ⟨fs, (reaches_concat_iff hpart).2 ⟨h, htarget ▸ hnode⟩, .inr ⟨rfl, ?_, ?_⟩⟩
      · rw [isDirectory, find, hlocate]
        simp only [bind, Except.bind, hnode]
      · rw [createDirectory, hlocate]
        simp only [bind, Except.bind, hnode]
    | file content isExecutable => exact absurd ⟨content, isExecutable, hnode⟩ hfile

/-- `createAll` can make directories at paths each of which leads one part further than the next
one, if no file is on the way. -/
theorem createAll_of_isWay (hway : Path.IsWay fromRoot parts paths)
    (hshort : ∀ part ∈ parts, part.utf8ByteSize ≤ longestPart)
    (hcheck : ∀ path ∈ paths, checkPath path = .ok ())
    (hfile : ∀ path ∈ paths, ¬fs.IsFile (fs.target path)) :
    ∃ fs', fs.createAll paths = (.ok (), fs') ∧ fs'.Reaches (fs'.start fromRoot) parts := by
  -- the induction goes down the way to the directory, one part at a time
  induction hway with
  | nil => exact ⟨fs, rfl, rfl, node?_start fs fromRoot⟩
  | @cons before above last path way hparts hroot hname ih =>
    have hbefore : ∀ p ∈ before, p.utf8ByteSize ≤ longestPart := fun p hp => hshort p (by simp [hp])
    have hlast := hshort last (by simp)
    have hpath := hfile path List.mem_cons_self
    have hpathCheck := hcheck path List.mem_cons_self
    have habove := fun path hpath => hfile path (List.mem_cons_of_mem _ hpath)
    by_cases hreaches : fs.Reaches (fs.start fromRoot) before
    · obtain ⟨fs', hreaches', hcreate | ⟨rfl, hdirectory, hcreate⟩⟩ :=
        createDirectory_of_reaches hreaches hparts hroot hname hpathCheck hlast hpath
      · exact ⟨fs', by rw [createAll, hcreate], hreaches'⟩
      · exact ⟨fs', by rw [createAll, hcreate]; simp only [hdirectory, if_true], hreaches'⟩
    · -- the directories above have to be made first
      have hnotFound : fs.createDirectory path = .error .notFound := by
        have hlocate : fs.locate path = .error .notFound := by
          rw [locate, hpathCheck, hparts, origin, hroot]
          exact walk_notFound way hbefore habove hreaches
        rw [createDirectory, hlocate]
        rfl
      obtain ⟨fs₁, hall, hreaches₁⟩ := ih hbefore
        (fun path hpath => hcheck path (List.mem_cons_of_mem _ hpath)) habove
      have hconfined := confined_createAll fs above
      rw [hall] at hconfined
      have hpath₁ : ¬fs₁.IsFile (fs₁.target path) := by
        rw [hconfined.target_eq, hconfined.isFile_iff not_false]
        exact hpath
      obtain ⟨fs', hreaches', hcreate | ⟨rfl, hdirectory, hcreate⟩⟩ :=
        createDirectory_of_reaches hreaches₁ hparts hroot hname hpathCheck hlast hpath₁
      · exact ⟨fs', by rw [createAll, hnotFound, hall]; simp only [hcreate], hreaches'⟩
      · exact ⟨fs', by rw [createAll, hnotFound, hall]; simp only [hcreate, hdirectory, if_true],
          hreaches'⟩

/-! ## Directories that can be made -/

/-- One of the `ancestors` of a file in a directory is on the way to the directory, if it is not the
directory. -/
theorem target_of_mem_ancestors_join {base name above : String} (hname : Path.IsName name)
    (h : above ∈ Path.ancestors (Path.join base name)) : fs.target above = fs.target base ∨
      ∃ above' ∈ Path.ancestors base, fs.target above' = fs.target above := by
  obtain ⟨hbegins, hne, hroot⟩ := (Path.isWay_ancestors _).of_mem h
  rw [Path.parts_join hname, List.dropLast_concat] at hbegins
  rw [Path.isAbsolute_join hname] at hroot
  by_cases hparts : Path.parts above = Path.parts base
  · exact .inl ((target_eq hparts hroot).trans (target_eq rfl rfl).symm)
  · -- a way that ends before the last part of the base
    have hbefore : Path.parts above <+: (Path.parts base).dropLast := by
      obtain ⟨rest, hrest⟩ := hbegins
      have hrestNe : rest ≠ [] := fun hnil => hparts (by rw [← hrest, hnil, List.append_nil])
      rw [← hrest, List.dropLast_append_of_ne_nil hrestNe]
      exact List.prefix_append _ _
    obtain ⟨above', hmem, hparts', hroot'⟩ := (Path.isWay_ancestors base).exists_mem hbefore hne
    exact .inr ⟨above', hmem, (target_eq hparts' hroot').trans (target_eq rfl hroot).symm⟩

theorem checkPath_eq_ok_iff : checkPath path = .ok () ↔
    '\x00' ∉ path.toList ∧ path ≠ "" ∧ path.utf8ByteSize ≤ longestPath := by
  rw [checkPath]
  split
  · next h => simp [h]
  · next hnul =>
    split
    · next h => simp [h]
    · next hempty =>
      split
      · next h => simpa using fun _ _ => h
      · next hlong => simp [hnul, hempty, Nat.not_lt.1 hlong]

/-- What `checkPath` lets through leads through what it lets through. -/
theorem checkPath_of_mem_ancestors {above : String} (h : checkPath path = .ok ())
    (habove : above ∈ Path.ancestors path) : checkPath above = .ok () := by
  obtain ⟨hnul, -, hlong⟩ := checkPath_eq_ok_iff.1 h
  obtain ⟨-, hne, -⟩ := (Path.isWay_ancestors path).of_mem habove
  rw [Path.ancestors_eq_map] at habove
  obtain ⟨way, hway, rfl⟩ := List.mem_map.1 habove
  have hbegins := Path.toList_intercalate_of_way (Path.of_mem_waysTo (List.mem_of_mem_tail hway)).1
  rw [Path.intercalate_pieces] at hbegins
  obtain ⟨rest, hrest⟩ := hbegins
  refine checkPath_eq_ok_iff.2 ⟨fun hmem => hnul ?_, fun hempty => hne ?_, ?_⟩
  · rw [← hrest]
    exact List.mem_append_left _ hmem
  · rw [hempty]
    rfl
  · have hpath : path = "/".intercalate way ++ String.ofList rest :=
      String.toList_injective (by rw [String.toList_append, String.toList_ofList, hrest])
    rw [hpath, String.utf8ByteSize_append] at hlong
    omega

/-- Whether a directory can be made at a `path`: neither the path nor any part of it is too long,
and no file is on the way. -/
structure Accessible (fs : FileStore) (path : String) : Prop where
  check : checkPath path = .ok ()
  short : ∀ part ∈ Path.parts path, part.utf8ByteSize ≤ longestPart
  way : ∀ above ∈ Path.ancestors path, ¬fs.IsFile (fs.target above)

theorem find_eq_directory_iff : fs.find path = .ok .directory ↔
    fs.locate path = .ok (fs.target path) ∧ fs.node? (fs.target path) = some .directory := by
  refine ⟨node?_of_find, fun ⟨hlocate, hnode⟩ => ?_⟩
  rw [find, hlocate]
  simp only [bind, Except.bind, hnode]

theorem find_of_isDirectory (h : fs.isDirectory path = true) : fs.find path = .ok .directory := by
  rw [isDirectory] at h
  split at h
  · assumption
  · cases h

theorem isPresent_of_find {node : FileNode} (h : fs.find path = .ok node) :
    fs.isPresent path = true := by
  rw [isPresent, h]
  rfl

namespace Accessible

variable (h : fs.Accessible path) (hnamed : Path.IsNamed path)

include h

/-- What changes nothing on the way leaves a path `Accessible`. -/
theorem of_confined {inside : Location → Prop} {places : List Location}
    (hconfined : Confined inside places fs fs')
    (hinside : ∀ above ∈ Path.ancestors path, ¬inside (fs.target above)) : fs'.Accessible path := by
  refine ⟨h.check, h.short, fun above habove => ?_⟩
  rw [hconfined.target_eq, hconfined.isFile_iff (hinside above habove)]
  exact h.way above habove

include hnamed

/-- `find` finds a directory exactly if it is there with all those above it. -/
theorem find_eq_directory_iff : fs.find path = .ok .directory ↔
    ∀ above ∈ path :: Path.ancestors path, fs.node? (fs.target above) = some .directory := by
  rw [← reaches_iff hnamed.isWay h.short, FileStore.find_eq_directory_iff, locate, h.check,
    target_eq rfl rfl]
  exact ⟨fun ⟨hwalk, hnode⟩ => ⟨hwalk, hnode⟩, fun hreaches => ⟨hreaches.walk, hreaches.node⟩⟩

/-- `createDirectories` can make a directory that is `Accessible`, and it is there then. -/
theorem createDirectories (hfile : ¬fs.IsFile (fs.target path)) :
    (fs.createDirectories path).1 = .ok () ∧
      (fs.createDirectories path).2.find path = .ok .directory := by
  have hcheck : ∀ p ∈ path :: Path.ancestors path, checkPath p = .ok () :=
    List.forall_mem_cons.2 ⟨h.check, fun above => checkPath_of_mem_ancestors h.check⟩
  obtain ⟨fs', hall, hreaches⟩ := createAll_of_isWay hnamed.isWay h.short hcheck
    (List.forall_mem_cons.2 ⟨hfile, h.way⟩)
  rw [FileStore.createDirectories, if_neg hnamed.1, hall]
  refine ⟨rfl, FileStore.find_eq_directory_iff.2 ⟨?_, ?_⟩⟩
  · rw [locate, h.check, target_eq rfl rfl]
    exact hreaches.walk
  · rw [target_eq rfl rfl]
    exact hreaches.node

/-- A directory is still found when it was `emptied`, if its path does not lead through there. -/
theorem find_emptied (hfind : fs.find path = .ok .directory)
    (hway : ∀ above ∈ Path.ancestors path, ∀ name below,
      fs.target above ≠ fs.target path ++ name :: below) :
    (fs.emptied (fs.target path)).find path = .ok .directory := by
  have hconfined := fs.confined_emptied (fs.target path)
  have hout : ∀ above ∈ path :: Path.ancestors path,
      ¬∃ name below, fs.target above = fs.target path ++ name :: below := by
    refine List.forall_mem_cons.2 ⟨?_, fun above habove => ?_⟩
    · rintro ⟨name, below, heq⟩
      simpa using congrArg List.length heq
    · rintro ⟨name, below, heq⟩
      exact hway above habove name below heq
  have hdirectory := (h.find_eq_directory_iff hnamed).1 hfind
  have haccessible := h.of_confined hconfined fun above habove =>
    hout above (List.mem_cons_of_mem _ habove)
  refine (haccessible.find_eq_directory_iff hnamed).2 fun above habove => ?_
  rw [hconfined.target_eq]
  exact hconfined.directory (hout above habove) (hdirectory above habove)

/-- `removeDirectory` can remove a directory with all that is in it, if its path does not lead
through there. -/
theorem removeDirectory (hfind : fs.find path = .ok .directory)
    (hworking : ¬fs.target path <+: fs.workingDirectory)
    (hway : ∀ above ∈ Path.ancestors path, ∀ name below,
      fs.target above ≠ fs.target path ++ name :: below) :
    (fs.removeDirectory path).1 = .ok () ∧
      ∀ below, (fs.removeDirectory path).2.node? (fs.target path ++ below) = none := by
  have hlocate := (FileStore.find_eq_directory_iff.1 hfind).1
  have hempty : (fs.emptied (fs.target path)).isDirectory path = true := by
    rw [isDirectory, h.find_emptied hnamed hfind hway]
  rw [FileStore.removeDirectory, hfind, hlocate]
  dsimp only
  rw [hempty]
  simp only [Bool.not_true, Bool.false_eq_true, if_false, hnamed.2]
  refine ⟨trivial, fun below => ?_⟩
  have hbegins : ¬fs.target path ++ below <+: fs.workingDirectory := fun hbegins =>
    hworking ((List.prefix_append _ _).trans hbegins)
  -- the directory goes last, when nothing is left below it
  by_cases hbelow : below = []
  · exact node?_filter_of_neg hbegins (by simp [hbelow])
  · rw [node?_filter_of_pos (by simpa using hbelow)]
    exact node?_filter_of_neg hbegins (by simp [hbelow])

end Accessible

/-- A file in a directory that is `Accessible` is present, if its path is not too long. -/
theorem isPresent_of_isFile {directory name : String} (hname : Path.IsName name)
    (h : fs.Accessible directory) (hnamed : Path.IsNamed directory)
    (hfind : fs.find directory = .ok .directory)
    (hcheck : checkPath (Path.join directory name) = .ok ())
    (hshort : name.utf8ByteSize ≤ longestPart) (hfile : fs.IsFile (fs.target directory ++ [name])) :
    fs.isPresent (Path.join directory name) = true := by
  have hreaches : fs.Reaches (fs.start (Path.isAbsolute directory)) (Path.parts directory) :=
    (reaches_iff hnamed.isWay h.short).2 ((h.find_eq_directory_iff hnamed).1 hfind)
  have hlocate := hreaches.locate (Path.parts_join hname) (Path.isAbsolute_join hname) hcheck hshort
  obtain ⟨content, isExecutable, hnode⟩ := hfile
  rw [target_join hname] at hlocate
  rw [isPresent, find, hlocate]
  simp only [bind, Except.bind, hnode, hname.namesDirectory_join]
  rfl

end FileStore

end MappingTables
