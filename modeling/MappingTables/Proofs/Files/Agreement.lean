import MappingTables.Proofs.Files.Directories

/-!
# Files that agree

What an operation on a file store does depends on what is at the places through which its path
leads, and on nothing else. So it does the same to two stores that agree there.

* `trail`: the places through which a path leads.
* `View`: some places, as they are seen from a directory; `View.Covers` says that all places through
  which a path leads are among them.
* `AgreeIn`: whether two stores hold the same at the places of a view.
* `AgreeIn.find_eq`, `AgreeIn.write`, `AgreeIn.createDirectories`, `AgreeIn.removeDirectory`:
  operations on stores that agree.
-/

namespace MappingTables

namespace FileStore

variable {start place location : Location} {path : String}

/-- The places through which a `path` leads, from the one where it starts to the one where it
ends. -/
def trail (start : Location) (path : String) : List Location :=
  (Path.parts path).inits.map fun before =>
    before.foldl enter (if Path.isAbsolute path then [] else start)

theorem mem_trail_iff : place ∈ trail start path ↔ ∃ before, before <+: Path.parts path ∧
    before.foldl enter (if Path.isAbsolute path then [] else start) = place := by
  simp [trail]

/-- The `trail` of a path that leads a part of the way is a part of the trail. -/
theorem trail_subset {above : String} (hbegins : Path.parts above <+: Path.parts path)
    (hroot : Path.isAbsolute above = Path.isAbsolute path) :
    trail start above ⊆ trail start path := by
  intro place hplace
  obtain ⟨before, hbefore, rfl⟩ := mem_trail_iff.1 hplace
  exact mem_trail_iff.2 ⟨before, hbefore.trans hbegins, by rw [hroot]⟩

theorem trail_ancestor_subset {above : String} (h : above ∈ Path.ancestors path) :
    trail start above ⊆ trail start path := by
  obtain ⟨hbegins, -, hroot⟩ := (Path.isWay_ancestors path).of_mem h
  exact trail_subset (hbegins.trans (List.dropLast_prefix _)) hroot

theorem target_mem_trail (fs : FileStore) (path : String) :
    fs.target path ∈ trail fs.workingDirectory path :=
  mem_trail_iff.2 ⟨Path.parts path, List.prefix_rfl, rfl⟩

/-- The `trail` of a file in a directory is that of the directory, with one more step. -/
theorem mem_trail_join_iff {fs : FileStore} {base name : String} (hname : Path.IsName name) :
    place ∈ trail fs.workingDirectory (Path.join base name) ↔
      place ∈ trail fs.workingDirectory base ∨ place = fs.target base ++ [name] := by
  rw [mem_trail_iff, Path.parts_join hname, Path.isAbsolute_join hname]
  simp only [List.prefix_concat_iff]
  constructor
  · rintro ⟨before, rfl | hbefore, rfl⟩
    · right
      rw [List.foldl_concat, enter, if_neg hname.2.2.1]
      rfl
    · exact .inl (mem_trail_iff.2 ⟨before, hbefore, rfl⟩)
  · rintro (hplace | rfl)
    · obtain ⟨before, hbefore, rfl⟩ := mem_trail_iff.1 hplace
      exact ⟨before, .inr hbefore, rfl⟩
    · refine ⟨Path.parts base ++ [name], .inl rfl, ?_⟩
      rw [List.foldl_concat, enter, if_neg hname.2.2.1]
      rfl

end FileStore

/-- Some places, as they are seen from a directory. -/
structure View where
  /-- The directory at which relative paths start. -/
  start : Location
  /-- Whether a place is seen. -/
  Sees : Location → Prop

/-- Whether all places through which a `path` leads are seen. -/
def View.Covers (v : View) (path : String) : Prop :=
  ∀ place ∈ FileStore.trail v.start path, v.Sees place

/-- All places, seen from the directory `start`. -/
def View.all (start : Location) : View :=
  ⟨start, fun _ => True⟩

theorem View.all_covers (start : Location) (path : String) : (View.all start).Covers path :=
  fun _ _ => trivial

/-- All places but those in the directory at a `location`. -/
def View.around (start location : Location) : View :=
  ⟨start, fun place => ¬(location <+: place ∧ place ≠ location)⟩

/-- The places through which a `path` leads. -/
def View.along (start : Location) (path : String) : View :=
  ⟨start, (· ∈ FileStore.trail start path)⟩

theorem View.along_covers (start : Location) (path : String) :
    (View.along start path).Covers path :=
  fun _ => id

/-- Whether two operations fail alike, or give values that `R` relates. -/
inductive SameOutcome {ε α β : Type} (R : α → β → Prop) : Except ε α → Except ε β → Prop
  | ok {a : α} {b : β} (h : R a b) : SameOutcome R (.ok a) (.ok b)
  | error (e : ε) : SameOutcome R (.error e) (.error e)

namespace FileStore

variable {v : View} {fs fs' : FileStore} {path : String} {place location : Location}

/-- Whether two stores hold the same at the places of the view `v`, relative paths start at the
directory from which these are seen, and writing is interrupted alike. -/
structure AgreeIn (v : View) (fs fs' : FileStore) : Prop where
  left : fs.workingDirectory = v.start
  right : fs'.workingDirectory = v.start
  interrupts : fs'.interrupts = fs.interrupts
  node?_eq : ∀ place, v.Sees place → fs'.node? place = fs.node? place

namespace AgreeIn

theorem refl (h : fs.workingDirectory = v.start) : AgreeIn v fs fs :=
  ⟨h, h, rfl, fun _ _ => rfl⟩

theorem trans {fs'' : FileStore} (h : AgreeIn v fs fs') (h' : AgreeIn v fs' fs'') :
    AgreeIn v fs fs'' :=
  ⟨h.left, h'.right, h'.interrupts.trans h.interrupts, fun place hplace =>
    (h'.node?_eq place hplace).trans (h.node?_eq place hplace)⟩

theorem mono {v' : View} (h : AgreeIn v fs fs') (hstart : v'.start = v.start)
    (hsees : ∀ place, v'.Sees place → v.Sees place) : AgreeIn v' fs fs' :=
  ⟨h.left.trans hstart.symm, h.right.trans hstart.symm, h.interrupts, fun place hplace =>
    h.node?_eq place (hsees place hplace)⟩

/-- Stores that agree in a view agree `along` each path that it covers. -/
theorem along (h : AgreeIn v fs fs') (hpath : v.Covers path) :
    AgreeIn (.along v.start path) fs fs' :=
  h.mono rfl hpath

/-- Stores agree in a view if nothing changed in it: what may have changed is `Confined` to places
outside. -/
theorem of_confined {inside : Location → Prop} (h : Confined inside [] fs fs')
    (hstart : fs.workingDirectory = v.start) (hsees : ∀ place, v.Sees place → ¬inside place) :
    AgreeIn v fs fs' :=
  ⟨hstart, h.working.trans hstart, h.interrupts, fun place hplace =>
    h.node?_eq (hsees place hplace) List.not_mem_nil⟩

/-! ## Looking -/

section Looking

variable (h : AgreeIn v fs fs')

include h

theorem working : fs'.workingDirectory = fs.workingDirectory :=
  h.right.trans h.left.symm

theorem target_eq (path : String) : fs'.target path = fs.target path := by
  rw [target, target, origin, origin, h.working]

theorem sees_target (hpath : v.Covers path) : v.Sees (fs.target path) := by
  refine hpath _ ?_
  rw [← h.left]
  exact target_mem_trail fs path

theorem requireDirectory_eq (hplace : v.Sees place) :
    fs'.requireDirectory place = fs.requireDirectory place := by
  rw [requireDirectory, requireDirectory, h.node?_eq place hplace]

theorem walk_eq {parts : List String}
    (hparts : ∀ before, before <+: parts → v.Sees (before.foldl enter place)) :
    fs'.walk place parts = fs.walk place parts := by
  -- whoever has gone one part further has the other parts ahead, from a place that is seen as well
  induction parts generalizing place with
  | nil => rfl
  | cons part parts ih =>
    have hplace : fs'.requireDirectory place = fs.requireDirectory place :=
      h.requireDirectory_eq (hparts [] List.nil_prefix)
    rw [walk, walk, hplace]
    have hrest := ih fun before hbefore =>
      hparts (part :: before) ((List.prefix_cons_inj part).2 hbefore)
    simp only [hrest]

variable (hpath : v.Covers path)

include hpath

theorem sees_of_prefix {before : List String} (hbefore : before <+: Path.parts path) :
    v.Sees (before.foldl enter (fs.origin path)) := by
  refine hpath _ (mem_trail_iff.2 ⟨before, hbefore, ?_⟩)
  rw [origin, h.left]

theorem locate_eq : fs'.locate path = fs.locate path := by
  rw [locate, locate, show fs'.origin path = fs.origin path by rw [origin, origin, h.working],
    h.walk_eq fun before => h.sees_of_prefix hpath]

/-- What `locate` gives leads to the same in both stores. -/
theorem node?_eq_of_locate (hlocate : fs.locate path = .ok location) :
    fs'.node? location = fs.node? location := by
  rw [locate_eq_ok hlocate]
  exact h.node?_eq _ (h.sees_target hpath)

theorem checkWay_eq : fs'.checkWay path = fs.checkWay path := by
  have hdropLast : ∀ before, before <+: (Path.parts path).dropLast →
      v.Sees (before.foldl enter (fs.origin path)) := fun before hbefore =>
    h.sees_of_prefix hpath (hbefore.trans (List.dropLast_prefix _))
  rw [checkWay, checkWay, show fs'.origin path = fs.origin path by rw [origin, origin, h.working],
    h.walk_eq hdropLast]
  cases hcheck : checkPath path with
  | error e => rfl
  | ok u =>
    cases hwalk : fs.walk (fs.origin path) (Path.parts path).dropLast with
    | error e => rfl
    | ok location =>
      obtain rfl := walk_eq_ok hwalk
      exact h.requireDirectory_eq (hdropLast _ List.prefix_rfl)

theorem find_eq : fs'.find path = fs.find path := by
  rw [find, find, h.locate_eq hpath]
  cases hlocate : fs.locate path with
  | error e => rfl
  | ok location => simp only [bind, Except.bind, h.node?_eq_of_locate hpath hlocate]

theorem read_eq : fs'.read path = fs.read path := by
  rw [read, read, h.find_eq hpath]

theorem isPresent_eq : fs'.isPresent path = fs.isPresent path := by
  rw [isPresent, isPresent, h.find_eq hpath]

theorem isDirectory_eq : fs'.isDirectory path = fs.isDirectory path := by
  rw [isDirectory, isDirectory, h.find_eq hpath]

end Looking

/-! ## Changing -/

/-- For stores to agree, the working directory and those above it need not be looked at: they are
there anyway. -/
theorem of_get? (hleft : fs.workingDirectory = v.start) (hright : fs'.workingDirectory = v.start)
    (hinterrupts : fs'.interrupts = fs.interrupts)
    (h : ∀ place, v.Sees place → ¬place <+: v.start →
      fs'.nodes.get? place = fs.nodes.get? place) : AgreeIn v fs fs' := by
  refine ⟨hleft, hright, hinterrupts, fun place hplace => ?_⟩
  by_cases habove : place <+: v.start
  · rw [node?_of_above (hright ▸ habove), node?_of_above (hleft ▸ habove)]
  · rw [node?_of_not_above (hright ▸ habove), node?_of_not_above (hleft ▸ habove),
      h place hplace habove]

theorem get?_eq (h : AgreeIn v fs fs') (hplace : v.Sees place) (hbelow : ¬place <+: v.start) :
    fs'.nodes.get? place = fs.nodes.get? place := by
  have hnode := h.node?_eq place hplace
  rwa [node?_of_not_above (h.right ▸ hbelow), node?_of_not_above (h.left ▸ hbelow)] at hnode

theorem set (h : AgreeIn v fs fs') (location : Location) (node : FileNode) :
    AgreeIn v (fs.set location node) (fs'.set location node) := by
  refine of_get? h.left h.right h.interrupts fun place hplace hbelow => ?_
  rw [FileStore.set, FileStore.set, OrderedMap.get?_insert, OrderedMap.get?_insert,
    h.get?_eq hplace hbelow]

theorem filter (h : AgreeIn v fs fs') (p : Location → Bool) :
    AgreeIn v { fs with nodes := fs.nodes.filterKeys p }
      { fs' with nodes := fs'.nodes.filterKeys p } := by
  refine of_get? h.left h.right h.interrupts fun place hplace hbelow => ?_
  rw [OrderedMap.get?_filterKeys, OrderedMap.get?_filterKeys, h.get?_eq hplace hbelow]

section Changing

variable (h : AgreeIn v fs fs') (hpath : v.Covers path)

include h hpath

/-- `create` opens files at the same location in stores that agree. -/
theorem create : SameOutcome (fun opened opened' => opened'.1 = opened.1 ∧
    opened.1 = fs.target path ∧ AgreeIn v opened.2 opened'.2) (fs.create path)
      (fs'.create path) := by
  unfold FileStore.create
  dsimp only
  -- once the ways are the same, only what is at the end of the path decides
  rw [h.checkWay_eq hpath, h.locate_eq hpath]
  split
  · cases fs.checkWay path with
    | error e => exact .error e
    | ok u => exact .error _
  · cases hlocate : fs.locate path with
    | error e => exact .error e
    | ok location =>
      have hnode := h.node?_eq_of_locate hpath hlocate
      have hreceived :
          fs'.received location (.bytes .empty) = fs.received location (.bytes .empty) := by
        rw [received, received, hnode]
      simp only [bind, Except.bind, hnode, hreceived]
      split
      · exact .error _
      · split
        · exact .error _
        · exact .ok ⟨rfl, locate_eq_ok hlocate, h.set _ _⟩
      · split
        · exact .error _
        · exact .ok ⟨rfl, locate_eq_ok hlocate, h.set _ _⟩

omit hpath in
/-- `fill` writes to files that are open alike in stores that agree. -/
theorem fill (hplace : v.Sees place) (content : FileContent) :
    (fs'.fill place content).1 = (fs.fill place content).1 ∧
      AgreeIn v (fs.fill place content).2 (fs'.fill place content).2 := by
  have hhold : ∀ content, AgreeIn v (fs.hold place content) (fs'.hold place content) := by
    intro content
    have hnode := h.node?_eq place hplace
    rw [hold, hold, received, received, hnode]
    split
    · exact h.set _ _
    · exact h
  rw [FileStore.fill, FileStore.fill, h.interrupts]
  split
  · exact ⟨rfl, hhold content⟩
  · next interruption _ => exact ⟨rfl, hhold interruption.written⟩

theorem write (content : FileContent) :
    (fs'.write path content).1 = (fs.write path content).1 ∧
      AgreeIn v (fs.write path content).2 (fs'.write path content).2 := by
  have hcreate := h.create hpath
  rw [FileStore.write, FileStore.write]
  generalize fs.create path = opened at hcreate
  generalize fs'.create path = opened' at hcreate
  cases hcreate with
  | error e => exact ⟨rfl, h⟩
  | @ok opened opened' hopened =>
    obtain ⟨place, fs₁⟩ := opened
    obtain ⟨place', fs₁'⟩ := opened'
    obtain ⟨rfl, rfl, hsame⟩ := hopened
    exact hsame.fill (h.sees_target hpath) content

theorem removeFile : SameOutcome (AgreeIn v) (fs.removeFile path) (fs'.removeFile path) := by
  rw [FileStore.removeFile, FileStore.removeFile, h.find_eq hpath, h.locate_eq hpath]
  cases fs.find path with
  | error e => exact .error e
  | ok node =>
    cases node with
    | directory => exact .error _
    | file content isExecutable =>
      cases fs.locate path with
      | error e => exact .error e
      | ok location => exact .ok (h.filter _)

theorem createDirectory :
    SameOutcome (AgreeIn v) (fs.createDirectory path) (fs'.createDirectory path) := by
  rw [FileStore.createDirectory, FileStore.createDirectory, h.locate_eq hpath]
  cases hlocate : fs.locate path with
  | error e => exact .error e
  | ok location =>
    simp only [bind, Except.bind, h.node?_eq_of_locate hpath hlocate]
    split
    · exact .error _
    · exact .error _
    · split
      · exact .error _
      · exact .ok (h.set _ _)

end Changing

/-- `createAll` makes directories alike in stores that agree, as far as that goes. -/
theorem createAll {paths : List String} (h : AgreeIn v fs fs')
    (hpaths : ∀ path ∈ paths, v.Covers path) :
    (fs'.createAll paths).1 = (fs.createAll paths).1 ∧
      AgreeIn v (fs.createAll paths).2 (fs'.createAll paths).2 := by
  induction paths generalizing fs fs' with
  | nil => exact ⟨rfl, h⟩
  | cons path above ih =>
    obtain ⟨hpath, habove⟩ := List.forall_mem_cons.1 hpaths
    have hfirst := h.createDirectory hpath
    obtain ⟨hfailure, hall⟩ := ih h habove
    rw [FileStore.createAll, FileStore.createAll]
    generalize fs.createDirectory path = made at hfirst
    generalize fs'.createDirectory path = made' at hfirst
    cases hfirst with
    | ok hmade => exact ⟨rfl, hmade⟩
    | error e =>
      cases e with
      | notFound =>
        -- those above are made before the directory itself is tried once more
        generalize fs.createAll above = result at hfailure hall
        generalize fs'.createAll above = result' at hfailure hall
        obtain ⟨outcome, gs⟩ := result
        obtain ⟨outcome', gs'⟩ := result'
        obtain rfl : outcome' = outcome := hfailure
        replace hall : AgreeIn v gs gs' := hall
        cases outcome' with
        | error e => exact ⟨rfl, hall⟩
        | ok u =>
          have hlast := hall.createDirectory hpath
          dsimp only
          generalize gs.createDirectory path = made at hlast
          generalize gs'.createDirectory path = made' at hlast
          cases hlast with
          | ok hmade => exact ⟨rfl, hmade⟩
          | error e => exact ⟨by rw [hall.isDirectory_eq hpath], hall⟩
      | _ => exact ⟨by dsimp only; rw [h.isDirectory_eq hpath], h⟩

section Directories

variable (h : AgreeIn v fs fs') (hpath : v.Covers path)

include h hpath

theorem createDirectories :
    (fs'.createDirectories path).1 = (fs.createDirectories path).1 ∧
      AgreeIn v (fs.createDirectories path).2 (fs'.createDirectories path).2 := by
  rw [FileStore.createDirectories, FileStore.createDirectories]
  split
  · exact ⟨rfl, h⟩
  · refine h.createAll (List.forall_mem_cons.2 ⟨hpath, fun above habove => ?_⟩)
    exact fun place hplace => hpath place (trail_ancestor_subset habove hplace)

theorem removeDirectory :
    (fs'.removeDirectory path).1 = (fs.removeDirectory path).1 ∧
      AgreeIn v (fs.removeDirectory path).2 (fs'.removeDirectory path).2 := by
  unfold FileStore.removeDirectory
  rw [h.find_eq hpath, h.locate_eq hpath]
  split
  · next location _ _ =>
    have hemptied : AgreeIn v (fs.emptied location) (fs'.emptied location) := h.filter _
    dsimp only
    rw [hemptied.isDirectory_eq hpath]
    split
    · exact ⟨rfl, hemptied⟩
    · split
      · exact ⟨rfl, hemptied⟩
      · exact ⟨rfl, hemptied.filter _⟩
  · exact ⟨rfl, h⟩
  · exact ⟨rfl, h⟩

end Directories

end AgreeIn

end FileStore

end MappingTables
