import MappingTables.Proofs.Files.Agreement
import MappingTables.Proofs.Files.Reading

/-!
# Hosts that are alike

An action looks at the places through which its paths lead. If two hosts hold the same there, then
it does the same on both: it gives the same or fails with the same failure, and the hosts stay
alike.

* `Step.AgreesAt`, `Step.Agrees`: whether a step does the same in two states that are related.
* `Host.Alike`: whether two hosts hold the same at the places of a view, and have related tables.
* `Action.agrees_write`, `Jar.agrees_load`, `MappingsFile.agrees_read`: the actions on files.
-/

namespace MappingTables

namespace Step

variable {σ α β : Type} {R : σ → σ → Prop} {s s' : σ} {step : Step σ α}

/-! ## Steps that do the same -/

/-- Whether a `step` does the same in two states: it gives the same or fails alike, and the states
are related afterwards. -/
def AgreesAt (R : σ → σ → Prop) (step : Step σ α) (s s' : σ) : Prop :=
  (step.runFrom s').1 = (step.runFrom s).1 ∧ R (step.runFrom s).2 (step.runFrom s').2

/-- Whether a `step` does the same in any two states that are related. -/
def Agrees (R : σ → σ → Prop) (step : Step σ α) : Prop :=
  ∀ s s', R s s' → AgreesAt R step s s'

namespace AgreesAt

/-- What one run of a `step` gives, the other one gives as well. -/
theorem of_ok {a : α} {t : σ} (h : AgreesAt R step s s') (hrun : step.runFrom s = (.ok a, t)) :
    ∃ t', step.runFrom s' = (.ok a, t') ∧ R t t' := by
  obtain ⟨houtcome, hafter⟩ := h
  rw [hrun] at houtcome hafter
  exact ⟨(step.runFrom s').2, Prod.ext houtcome rfl, hafter⟩

theorem within {context : Context} (h : AgreesAt R step s s') :
    AgreesAt R (MappingTables.within context step) s s' := by
  rw [AgreesAt, runFrom_within, runFrom_within]
  exact ⟨congrArg (MappingTables.within context) h.1, h.2⟩

/-- A context changes failures only, so it can be put around a `step` before the part `f` of what
that gives is taken. -/
theorem map_within {f : α → β} {context : Context} (h : AgreesAt R (f <$> step) s s') :
    AgreesAt R (f <$> MappingTables.within context step) s s' := by
  have hwithin : ∀ x : Except Failure α, (MappingTables.within context x).map f =
      MappingTables.within context (x.map f) := by
    intro x
    cases x <;> rfl
  obtain ⟨houtcome, hafter⟩ := h
  rw [runFrom_map, runFrom_map] at houtcome hafter
  rw [AgreesAt, runFrom_map, runFrom_map, runFrom_within, runFrom_within, hwithin, hwithin]
  exact ⟨congrArg (MappingTables.within context) houtcome, hafter⟩

/-- What comes `next` after `step` starts in states that this leads to. -/
theorem bind {next : α → Step σ β} (h : AgreesAt R step s s')
    (hnext : ∀ a t t', step.runFrom s = (.ok a, t) → step.runFrom s' = (.ok a, t') → R t t' →
      AgreesAt R (next a) t t') : AgreesAt R (step >>= next) s s' := by
  obtain ⟨houtcome, hafter⟩ := h
  rw [AgreesAt, runFrom_bind, runFrom_bind]
  rcases hrun : step.runFrom s with ⟨outcome, t⟩
  rcases hrun' : step.runFrom s' with ⟨outcome', t'⟩
  rw [hrun, hrun'] at houtcome hafter
  obtain rfl : outcome' = outcome := houtcome
  cases outcome' with
  | ok a => exact hnext a t t' hrun hrun' hafter
  | error failure => exact ⟨rfl, hafter⟩

/-- What depends on the part `f` of a value only does not tell apart values with the same part. -/
theorem bind_map {γ : Type} {f : α → γ} {next : γ → Step σ β} (h : AgreesAt R (f <$> step) s s')
    (hnext : ∀ c t t', R t t' → AgreesAt R (next c) t t') :
    AgreesAt R (step >>= fun a => next (f a)) s s' := by
  rw [← bind_map_left]
  exact h.bind fun c t t' _ _ => hnext c t t'

/-- What `handle` does with a failure starts in states that the step led to. -/
theorem tryCatch {handle : Failure → Step σ α} (h : AgreesAt R step s s')
    (hhandle : ∀ failure, Agrees R (handle failure)) :
    AgreesAt R (MonadExcept.tryCatch step handle) s s' := by
  obtain ⟨houtcome, hafter⟩ := h
  rw [AgreesAt, runFrom_tryCatch, runFrom_tryCatch]
  generalize step.runFrom s = result at houtcome hafter
  generalize step.runFrom s' = result' at houtcome hafter
  obtain ⟨outcome, t⟩ := result
  obtain ⟨outcome', t'⟩ := result'
  obtain rfl : outcome' = outcome := houtcome
  cases outcome' with
  | ok a => exact ⟨rfl, hafter⟩
  | error failure => exact hhandle failure t t' hafter

end AgreesAt

namespace Agrees

theorem pure (a : α) : Agrees R (Pure.pure a : Step σ α) :=
  fun _ _ h => ⟨rfl, h⟩

theorem fail (cause : Cause) : Agrees R (MappingTables.fail cause : Step σ α) :=
  fun _ _ h => ⟨rfl, h⟩

theorem throw (failure : Failure) : Agrees R (MonadExcept.throw failure : Step σ α) :=
  fun _ _ h => ⟨rfl, h⟩

theorem ofExcept (x : Except Failure α) : Agrees R (Step.ofExcept x : Step σ α) :=
  fun _ _ h => ⟨rfl, h⟩

theorem within {context : Context} (h : Agrees R step) :
    Agrees R (MappingTables.within context step) :=
  fun s s' hs => (h s s' hs).within

/-- What comes `next` after `step` needs to agree only with what this can give. -/
theorem bind_of_ok {next : α → Step σ β} (h : Agrees R step)
    (hnext : ∀ a s t, step.runFrom s = (.ok a, t) → Agrees R (next a)) : Agrees R (step >>= next) :=
  fun s s' hs => (h s s' hs).bind fun a t t' hrun _ ht => hnext a s t hrun t t' ht

theorem bind {next : α → Step σ β} (h : Agrees R step) (hnext : ∀ a, Agrees R (next a)) :
    Agrees R (step >>= next) :=
  h.bind_of_ok fun a _ _ _ => hnext a

theorem map {f : α → β} (h : Agrees R step) : Agrees R (f <$> step) := by
  rw [map_eq_pure_bind]
  exact h.bind fun _ => pure _

/-- A step that `LeavesState` agrees if it gives the same. -/
theorem of_leavesState (hleaves : LeavesState step)
    (h : ∀ s s', R s s' → (step.runFrom s').1 = (step.runFrom s).1) : Agrees R step := by
  intro s s' hs
  refine ⟨h s s' hs, ?_⟩
  rwa [hleaves s, hleaves s']

theorem forM {f : α → Step σ PUnit} {l : List α} (h : ∀ a ∈ l, Agrees R (f a)) :
    Agrees R (l.forM f) := by
  induction l with
  | nil => exact pure _
  | cons a l ih =>
    obtain ⟨hfirst, hrest⟩ := List.forall_mem_cons.1 h
    exact hfirst.bind fun _ => ih hrest

end Agrees

end Step

/-! ## Hosts -/

/-- Whether two hosts hold the same at the places of a view `v`, and have tables that `T`
relates. -/
structure Host.Alike (v : View) (T : Service → Service → Prop) (host host' : Host) : Prop where
  files : FileStore.AgreeIn v host.files host'.files
  tables : T host.tables host'.tables

open Step

variable {v : View} {T : Service → Service → Prop} {path : String}

namespace Action

variable {α : Type}

theorem agrees_notice (n : Notice) : Agrees (Host.Alike v T) (notice n) :=
  fun _ _ h => ⟨rfl, h.files, h.tables⟩

theorem agrees_ofNoted (x : Noted Notice α) : Agrees (Host.Alike v T) (ofNoted x) :=
  fun _ _ h => ⟨rfl, h.files, h.tables⟩

/-- What is asked by `query` of files that are the same is answered alike. -/
theorem agrees_query {ask : FileStore → Except SystemError α}
    (h : ∀ fs fs', fs.AgreeIn v fs' → ask fs' = ask fs) :
    Agrees (Host.Alike v T) (query ask) := by
  refine .of_leavesState (leavesState_query ask) fun host host' halike => ?_
  rw [query, runFrom_bind, runFrom_bind, runFrom_get, runFrom_get]
  dsimp only
  rw [h _ _ halike.files]
  cases ask host.files <;> rfl

/-- Files that are the same are changed alike by `change`. -/
theorem agrees_change {apply : FileStore → Except SystemError FileStore}
    (h : ∀ fs fs', fs.AgreeIn v fs' → SameOutcome (FileStore.AgreeIn v) (apply fs) (apply fs')) :
    Agrees (Host.Alike v T) (change apply) := by
  intro host host' halike
  have hfiles := h _ _ halike.files
  rw [AgreesAt, change, query]
  simp only [runFrom_bind, runFrom_get]
  generalize apply host.files = changed at hfiles
  generalize apply host'.files = changed' at hfiles
  cases hfiles with
  | ok hfiles => exact ⟨rfl, hfiles, halike.tables⟩
  | error e => exact ⟨rfl, halike⟩

section Attempts

variable {apply : FileStore → Except SystemError Unit × FileStore}
  (h : ∀ fs fs', fs.AgreeIn v fs' → (apply fs').1 = (apply fs).1 ∧
    (apply fs).2.AgreeIn v (apply fs').2)

include h

theorem agrees_attempt : Agrees (Host.Alike v T) (attempt apply) := by
  intro host host' halike
  obtain ⟨houtcome, hfiles⟩ := h _ _ halike.files
  rw [AgreesAt, runFrom_attempt, runFrom_attempt]
  exact ⟨congrArg Except.ok houtcome, hfiles, halike.tables⟩

theorem agrees_changeAll : Agrees (Host.Alike v T) (changeAll apply) := by
  refine (agrees_attempt h).bind fun outcome => ?_
  cases outcome with
  | ok u => exact .pure _
  | error e => exact .fail _

end Attempts

section Paths

variable (hpath : v.Covers path)

include hpath

theorem agrees_isPresent : Agrees (Host.Alike v T) (isPresent path) := by
  intro host host' halike
  rw [AgreesAt, runFrom_isPresent, runFrom_isPresent, halike.files.isPresent_eq hpath]
  exact ⟨rfl, halike⟩

theorem agrees_write (content : FileContent) : Agrees (Host.Alike v T) (write path content) :=
  agrees_changeAll fun _ _ h => h.write hpath content

theorem agrees_writeIn (opening writing : Context) (content : FileContent) :
    Agrees (Host.Alike v T) (writeIn opening writing path content) := by
  intro host host' halike
  have hcreate := halike.files.create hpath
  rw [AgreesAt, runFrom_writeIn, runFrom_writeIn]
  generalize host.files.create path = opened at hcreate
  generalize host'.files.create path = opened' at hcreate
  cases hcreate with
  | error e => exact ⟨rfl, halike⟩
  | @ok opened opened' hopened =>
    obtain ⟨place, files⟩ := opened
    obtain ⟨place', files'⟩ := opened'
    obtain ⟨rfl, rfl, hfiles⟩ := hopened
    -- the location is among those of the way
    obtain ⟨houtcome, hfilled⟩ := hfiles.fill (halike.files.sees_target hpath) content
    dsimp only
    rw [houtcome]
    exact ⟨rfl, hfilled, halike.tables⟩

theorem agrees_removeFile : Agrees (Host.Alike v T) (change (·.removeFile path)) :=
  agrees_change fun _ _ h => h.removeFile hpath

theorem agrees_createDirectories : Agrees (Host.Alike v T) (createDirectories path) :=
  agrees_changeAll fun _ _ h => h.createDirectories hpath

theorem agrees_openInput : Agrees (Host.Alike v T) (openInput path) := by
  refine (agrees_query fun _ _ h => h.find_eq hpath).bind fun node => ?_
  cases node with
  | directory => exact .pure _
  | file content isExecutable => exact .pure _

theorem agrees_openArchive (opening reading : Context) :
    Agrees (Host.Alike v T) (openArchive opening reading path) := by
  refine (agrees_query fun _ _ h => h.find_eq hpath).within.bind fun node => ?_
  refine (agrees_query fun _ _ h => h.locate_eq hpath).within.bind fun location => ?_
  cases node with
  | directory => exact (Agrees.fail _).within
  | file content isExecutable =>
    dsimp only
    split
    · exact .pure _
    · exact (Agrees.fail _).within

end Paths

/-- `getOrCreate` builds a table alike, or finds it if the tables are the same. -/
theorem agrees_getOrCreate {key : String} {build : Action Table}
    (h : Agrees (Host.Alike v Eq) build) : Agrees (Host.Alike v Eq) (getOrCreate key build) := by
  intro host host' halike
  have htables : host.tables = host'.tables := halike.tables
  rw [AgreesAt]
  cases hkept : host.tables.get? key with
  | some shared =>
    rw [runFrom_getOrCreate_of_kept hkept, runFrom_getOrCreate_of_kept (htables ▸ hkept)]
    exact ⟨rfl, halike⟩
  | none =>
    -- both build the table after they have reserved its key
    rw [runFrom_getOrCreate_of_none hkept, runFrom_getOrCreate_of_none (htables ▸ hkept)]
    have hreserved : Host.Alike v Eq { host with tables := host.tables.reserve key }
        { host' with tables := host'.tables.reserve key } :=
      ⟨halike.files, congrArg (Service.reserve · key) htables⟩
    obtain ⟨houtcome, hfiles, hbuilt⟩ := h _ _ hreserved
    generalize build.runFrom { host with tables := host.tables.reserve key } = result at *
    generalize build.runFrom { host' with tables := host'.tables.reserve key } = result' at *
    obtain ⟨outcome, t⟩ := result
    obtain ⟨outcome', t'⟩ := result'
    obtain rfl : outcome' = outcome := houtcome
    replace hbuilt : t.tables = t'.tables := hbuilt
    cases outcome' with
    | ok table => exact ⟨by dsimp only; rw [hbuilt], hfiles, by dsimp only; rw [hbuilt]⟩
    | error failure => exact ⟨rfl, hfiles, hbuilt⟩

end Action

/-! ## Jars -/

namespace Jar

variable {jar : OpenArchive}

theorem agrees_load (hpath : v.Covers path) : Agrees (Host.Alike v T) (load path) :=
  Action.agrees_openArchive hpath _ _

/-- What a jar holds that `Jar.load` opened is seen where its file is. -/
theorem sees_location {host host' : Host} (hpath : v.Covers path)
    (hstart : host.files.workingDirectory = v.start)
    (hload : (load path).runFrom host = (.ok jar, host')) : v.Sees jar.location := by
  obtain ⟨-, hlocate, -⟩ := runFrom_load_eq_ok_iff.1 hload
  rw [FileStore.locate_eq_ok hlocate]
  exact (FileStore.AgreeIn.refl hstart).sees_target hpath

/-- If `Jar.load` opens a jar on two hosts, it is the same one if it is at a place that is seen. -/
theorem load_unique {jar' : OpenArchive} {host host' t t' : Host}
    (h : host.files.AgreeIn v host'.files) (hsees : v.Sees (host.files.target path))
    (hload : (load path).runFrom host = (.ok jar, t))
    (hload' : (load path).runFrom host' = (.ok jar', t')) : jar' = jar := by
  obtain ⟨⟨isExecutable, hfind⟩, hlocate, hlisting, hpath, -⟩ := runFrom_load_eq_ok_iff.1 hload
  obtain ⟨⟨isExecutable', hfind'⟩, hlocate', hlisting', hpath', -⟩ :=
    runFrom_load_eq_ok_iff.1 hload'
  have hlocation : jar'.location = jar.location := by
    rw [FileStore.locate_eq_ok hlocate', FileStore.locate_eq_ok hlocate, h.target_eq]
  have hcontent : jar'.content = jar.content := by
    have hnode := (FileStore.node?_of_find hfind').2
    rw [h.target_eq, h.node?_eq _ hsees, (FileStore.node?_of_find hfind).2] at hnode
    injection Option.some.inj hnode with hcontent
    exact hcontent.symm
  -- the listing is read off the content when the jar is opened
  have hsame : jar'.listing = jar.listing := by
    rw [hcontent, hlisting] at hlisting'
    exact (Option.some.inj hlisting').symm
  cases jar
  cases jar'
  simp_all only

theorem currentContent_eq {fs fs' : FileStore} (h : fs.AgreeIn v fs')
    (hsees : v.Sees jar.location) :
    jar.currentContent fs' = jar.currentContent fs := by
  rw [OpenArchive.currentContent, OpenArchive.currentContent, h.node?_eq _ hsees]

variable (hsees : v.Sees jar.location)

include hsees

theorem agrees_read? (member : String) : Agrees (Host.Alike v T) (read? jar member) := by
  obtain ⟨outcome, houtcome⟩ := runFrom_read? jar member
  refine .of_leavesState (leavesState_read? jar member) fun host host' halike => ?_
  rw [houtcome, houtcome, currentContent_eq halike.files hsees]

theorem agrees_extract {target : String} (htarget : v.Covers target) (member : String) :
    Agrees (Host.Alike v T) (extract jar member target) := by
  refine (agrees_read? hsees member).bind fun bytes? => ?_
  cases bytes? with
  | none => exact .pure _
  | some bytes => exact (Action.agrees_write htarget _).within.bind fun _ => .pure _

end Jar

theorem Jar.agrees_writeSingle (hpath : v.Covers path) (member : String) (bytes : ByteArray) :
    Agrees (Host.Alike v T) (writeSingle path member bytes) :=
  Action.agrees_writeIn hpath _ _ _

/-! ## Mappings files -/

namespace MappingsFile

variable (hpath : v.Covers path)

include hpath

theorem agrees_readIn {α : Type} (reading : Context) (read : Input → Except Failure α) :
    Agrees (Host.Alike v T) (readIn reading read path) :=
  (Action.agrees_openInput hpath).within.bind fun _ => .ofExcept _

theorem agrees_read : Agrees (Host.Alike v T) (MappingsFile.read path) :=
  agrees_readIn hpath _ _

theorem agrees_detect : Agrees (Host.Alike v T) (detect path) :=
  (agrees_readIn hpath _ _).bind fun _ => .ofExcept _

theorem agrees_write (dialect : Format.Dialect) (t : Table) :
    Agrees (Host.Alike v T) (MappingsFile.write dialect t path) :=
  (Action.agrees_writeIn hpath _ _ _).bind fun _ => .forM fun n _ => Action.agrees_notice n

end MappingsFile

namespace Source

theorem agrees_ofFile (hpath : v.Covers path) : Agrees (Host.Alike v T) (Source.ofFile path) :=
  ((Action.agrees_openInput hpath).bind fun _ => .ofExcept _).within.bind fun _ => .pure _

/-- `Source.getOrRead` reads the table of a source that is a file, unless it is kept. -/
theorem agrees_getOrRead {s : Source} (hpath : v.Covers s.path) (hfile : s.member = none)
    (label : String) : Agrees (Host.Alike v Eq) (s.getOrRead label) := by
  refine Action.agrees_getOrCreate (.bind ?_ fun t => Action.agrees_ofNoted _)
  rw [Source.read, hfile]
  exact MappingsFile.agrees_read hpath

end Source

end MappingTables
