import MappingTables.Host
import MappingTables.Proofs.Sequencing
import MappingTables.Proofs.Service

/-!
# Actions that succeed

What it takes for a step or an action to succeed, and what it changes then. Notices are left out of
account where nothing depends on them.

* `Step.runFrom_bind_eq_ok_iff`: one step after the other.
* `Step.Respects`, `Step.LeavesState`: what a step may change, also if it fails.
* `Action.runFrom_change_eq_ok_iff`: a change of the files.
* `Action.runFrom_getOrCreate_of_none`: a table that is not there yet is built and kept, or its key
  stays reserved.
-/

namespace MappingTables

namespace Step

variable {σ α β : Type} {s s' : σ} {a : α} {b : β}

/-- `step` and then `next` succeed exactly if both do. -/
theorem runFrom_bind_eq_ok_iff {step : Step σ α} {next : α → Step σ β} :
    (step >>= next).runFrom s = (.ok b, s') ↔
      ∃ a t, step.runFrom s = (.ok a, t) ∧ (next a).runFrom t = (.ok b, s') := by
  rw [runFrom_bind]
  constructor
  · intro h
    split at h
    · next a t hstep => exact ⟨a, t, hstep, h⟩
    · cases h
  · rintro ⟨a, t, hstep, hnext⟩
    rw [hstep]
    exact hnext

@[simp]
theorem runFrom_pure (a : α) : (pure a : Step σ α).runFrom s = (.ok a, s) :=
  rfl

@[simp]
theorem runFrom_get : (get : Step σ σ).runFrom s = (.ok s, s) :=
  rfl

@[simp]
theorem runFrom_modify (f : σ → σ) : (modify f : Step σ PUnit).runFrom s = (.ok ⟨⟩, f s) :=
  rfl

@[simp]
theorem runFrom_throw (failure : Failure) :
    (throw failure : Step σ α).runFrom s = (.error failure, s) :=
  rfl

@[simp]
theorem runFrom_fail (cause : Cause) :
    (fail cause : Step σ α).runFrom s = (.error (.ofCause cause), s) :=
  rfl

/-- `within` a `context` a step succeeds as it does without: only failures are changed. -/
theorem runFrom_within_eq_ok_iff {context : Context} {step : Step σ α} :
    (within context step).runFrom s = (.ok a, s') ↔ step.runFrom s = (.ok a, s') := by
  rw [runFrom_within, Prod.mk.injEq, within_eq_ok_iff, Prod.ext_iff]

theorem runFrom_map (f : α → β) (step : Step σ α) (s : σ) :
    (f <$> step).runFrom s = ((step.runFrom s).1.map f, (step.runFrom s).2) := by
  rw [map_eq_pure_bind, runFrom_bind]
  rcases step.runFrom s with ⟨outcome, t⟩
  cases outcome <;> rfl

theorem runFrom_map_eq_ok_iff {step : Step σ α} {f : α → β} :
    (f <$> step).runFrom s = (.ok b, s') ↔ ∃ a, step.runFrom s = (.ok a, s') ∧ f a = b := by
  rw [map_eq_pure_bind, runFrom_bind_eq_ok_iff]
  simp only [runFrom_pure, Prod.mk.injEq, Except.ok.injEq]
  constructor
  · rintro ⟨a, t, hstep, hb, rfl⟩
    exact ⟨a, hstep, hb⟩
  · rintro ⟨a, hstep, hb⟩
    exact ⟨a, s', hstep, hb, rfl⟩

theorem runFrom_tryCatch_of_ok {step : Step σ α} {handle : Failure → Step σ α}
    (h : step.runFrom s = (.ok a, s')) : (tryCatch step handle).runFrom s = (.ok a, s') := by
  rw [runFrom_tryCatch, h]

/-- A `step` whose failures `handle` answers by failing succeeds only if it does so itself. -/
theorem runFrom_tryCatch_eq_ok {step : Step σ α} {handle : Failure → Step σ α}
    (hfails : ∀ failure t t' a, (handle failure).runFrom t ≠ (.ok a, t'))
    (h : (tryCatch step handle).runFrom s = (.ok a, s')) : step.runFrom s = (.ok a, s') := by
  rw [runFrom_tryCatch] at h
  split at h
  · next a' t hstep => exact hstep.trans h
  · exact absurd h (hfails _ _ _ _)

/-! ### Steps that respect a relation -/

/-- Whether a `step` leads from each state to a related one, also if it fails. -/
def Respects (R : σ → σ → Prop) (step : Step σ α) : Prop :=
  ∀ s, R s (step.runFrom s).2

namespace Respects

variable {R : σ → σ → Prop}

theorem mono {R' : σ → σ → Prop} {step : Step σ α} (h : Respects R step)
    (hR : ∀ s s', R s s' → R' s s') : Respects R' step :=
  fun s => hR _ _ (h s)

theorem of_eq {outcome : Except Failure α} {step : Step σ α} (h : Respects R step)
    (hstep : step.runFrom s = (outcome, s')) : R s s' := by
  have hs := h s
  rwa [hstep] at hs

theorem within {context : Context} {step : Step σ α} (h : Respects R step) :
    Respects R (MappingTables.within context step) := by
  intro s
  rw [runFrom_within]
  exact h s

section Refl

variable [Std.Refl R]

theorem pure (a : α) : Respects R (Pure.pure a : Step σ α) :=
  fun s => Std.Refl.refl s

theorem fail (cause : Cause) : Respects R (MappingTables.fail cause : Step σ α) :=
  fun s => Std.Refl.refl s

theorem ofExcept (x : Except Failure α) : Respects R (Step.ofExcept x : Step σ α) :=
  fun s => Std.Refl.refl s

theorem get : Respects R (MonadState.get : Step σ σ) :=
  fun s => Std.Refl.refl s

end Refl

section Trans

variable [IsTrans σ R]

/-- What comes `next` needs to respect `R` only after what `step` can give. -/
theorem bind_of_ok {step : Step σ α} {next : α → Step σ β} (h : Respects R step)
    (hnext : ∀ a s t, step.runFrom s = (.ok a, t) → Respects R (next a)) :
    Respects R (step >>= next) := by
  intro s
  rw [runFrom_bind]
  split
  · next a t hstep => exact trans_of R (h.of_eq hstep) (hnext a s t hstep t)
  · next failure t hstep => exact h.of_eq hstep

theorem bind {step : Step σ α} {next : α → Step σ β} (h : Respects R step)
    (hnext : ∀ a, Respects R (next a)) : Respects R (step >>= next) :=
  h.bind_of_ok fun a _ _ _ => hnext a

theorem map [Std.Refl R] {step : Step σ α} {f : α → β} (h : Respects R step) :
    Respects R (f <$> step) := by
  rw [map_eq_pure_bind]
  exact h.bind fun _ => pure _

end Trans

end Respects

/-! ### Steps that change nothing -/

/-- Whether a `step` leaves the state as it is, also if it fails. -/
def LeavesState (step : Step σ α) : Prop :=
  ∀ s, (step.runFrom s).2 = s

/-- Whether nothing changed. -/
def Unchanged (s s' : σ) : Prop :=
  s' = s

instance : Std.Refl (Unchanged : σ → σ → Prop) := ⟨fun _ => rfl⟩

instance : IsTrans σ Unchanged := ⟨fun _ _ _ h h' => h'.trans h⟩

namespace LeavesState

/-- A `step` that `LeavesState` respects every `R` that relates each state to itself. -/
theorem respects {R : σ → σ → Prop} [Std.Refl R] {step : Step σ α} (h : LeavesState step) :
    Respects R step := by
  intro s
  rw [h s]
  exact Std.Refl.refl s

theorem pure (a : α) : LeavesState (Pure.pure a : Step σ α) :=
  Respects.pure (R := Unchanged) a

theorem fail (cause : Cause) : LeavesState (MappingTables.fail cause : Step σ α) :=
  Respects.fail (R := Unchanged) cause

theorem ofExcept (x : Except Failure α) : LeavesState (Step.ofExcept x : Step σ α) :=
  Respects.ofExcept (R := Unchanged) x

theorem get : LeavesState (MonadState.get : Step σ σ) :=
  Respects.get (R := Unchanged)

theorem bind {step : Step σ α} {next : α → Step σ β} (h : LeavesState step)
    (hnext : ∀ a, LeavesState (next a)) : LeavesState (step >>= next) :=
  Respects.bind (R := Unchanged) h hnext

theorem map {step : Step σ α} {f : α → β} (h : LeavesState step) : LeavesState (f <$> step) :=
  Respects.map (R := Unchanged) h

theorem within {context : Context} {step : Step σ α} (h : LeavesState step) :
    LeavesState (MappingTables.within context step) :=
  Respects.within (R := Unchanged) h

theorem eq_of_ok {step : Step σ α} (h : LeavesState step) (hstep : step.runFrom s = (.ok a, s')) :
    s' = s :=
  Respects.of_eq (R := Unchanged) h hstep

end LeavesState

end Step

/-! ## Actions -/

namespace Action

open Step

variable {α : Type} {host host' : Host} {u : Unit}

theorem runFrom_notice (n : Notice) :
    (notice n).runFrom host = (.ok (), { host with notices := host.notices ++ [n] }) :=
  rfl

theorem runFrom_notice_eq_ok {n : Notice} (h : (notice n).runFrom host = (.ok u, host')) :
    host'.files = host.files ∧ host'.tables = host.tables := by
  cases h
  exact ⟨rfl, rfl⟩

/-- `notices` are left one after the other. -/
theorem runFrom_forM_notice (notices : List Notice) (host : Host) :
    (notices.forM notice).runFrom host =
      (.ok (), { host with notices := host.notices ++ notices }) := by
  induction notices generalizing host with
  | nil =>
    rw [List.append_nil]
    rfl
  | cons n notices ih =>
    show (notice n >>= fun _ => notices.forM notice).runFrom host = _
    rw [runFrom_bind, runFrom_notice]
    dsimp only
    rw [ih, List.append_assoc, List.singleton_append]

theorem runFrom_ofNoted (x : Noted Notice α) :
    (ofNoted x).runFrom host = (x.outcome, { host with notices := host.notices ++ x.notes }) :=
  rfl

/-- `ofNoted` of an operation with notes succeeds exactly if that has an outcome, and its notes
become notices. -/
theorem runFrom_ofNoted_eq_ok_iff {x : Noted Notice α} {a : α} :
    (ofNoted x).runFrom host = (.ok a, host') ↔
      x.outcome = .ok a ∧ { host with notices := host.notices ++ x.notes } = host' := by
  rw [runFrom_ofNoted, Prod.mk.injEq]

/-- `ofNoted` leaves files and tables alone. -/
theorem runFrom_ofNoted_eq_ok {x : Noted Notice α} {a : α}
    (h : (ofNoted x).runFrom host = (.ok a, host')) :
    x.outcome = .ok a ∧ host'.files = host.files ∧ host'.tables = host.tables := by
  obtain ⟨houtcome, rfl⟩ := runFrom_ofNoted_eq_ok_iff.1 h
  exact ⟨houtcome, rfl, rfl⟩

theorem runFrom_query_eq_ok_iff {ask : FileStore → Except SystemError α} {a : α} :
    (query ask).runFrom host = (.ok a, host') ↔ ask host.files = .ok a ∧ host' = host := by
  rw [query, runFrom_bind, runFrom_get]
  dsimp only
  cases ask host.files with
  | error e => simp
  | ok b =>
    rw [runFrom_pure, Prod.mk.injEq, Except.ok.injEq, Except.ok.injEq]
    exact and_congr_right fun _ => eq_comm

/-- `change` changes the files as `apply` does, and only if that succeeds. -/
theorem respects_change {apply : FileStore → Except SystemError FileStore} {R : Host → Host → Prop}
    [Std.Refl R]
    (h : ∀ (host : Host) files, apply host.files = .ok files → R host { host with files }) :
    Respects R (change apply) := by
  intro host
  rw [change, runFrom_bind, query, runFrom_bind, runFrom_get]
  dsimp only
  cases hfiles : apply host.files with
  | ok files => exact h host files hfiles
  | error e => exact Std.Refl.refl host

/-- `change` leaves everything but the files alone. -/
theorem runFrom_change_eq_ok_iff {apply : FileStore → Except SystemError FileStore} :
    (change apply).runFrom host = (.ok u, host') ↔
      ∃ files, apply host.files = .ok files ∧ host' = { host with files } := by
  rw [change, runFrom_bind_eq_ok_iff]
  constructor
  · rintro ⟨files, t, hquery, hmodify⟩
    obtain ⟨hfiles, rfl⟩ := runFrom_query_eq_ok_iff.1 hquery
    cases hmodify
    exact ⟨files, hfiles, rfl⟩
  · rintro ⟨files, hfiles, rfl⟩
    exact ⟨files, host, runFrom_query_eq_ok_iff.2 ⟨hfiles, rfl⟩, rfl⟩

/-- `attempt` changes the files as far as `apply` goes. -/
theorem runFrom_attempt (apply : FileStore → Except SystemError Unit × FileStore) :
    (attempt apply).runFrom host =
      (.ok (apply host.files).1, { host with files := (apply host.files).2 }) :=
  rfl

/-- `changeAll` may change the files step by step also if it fails. -/
theorem respects_changeAll {apply : FileStore → Except SystemError Unit × FileStore}
    {R : Host → Host → Prop}
    (h : ∀ host : Host, R host { host with files := (apply host.files).2 }) :
    Respects R (changeAll apply) := by
  intro host
  rw [changeAll, runFrom_bind, runFrom_attempt]
  dsimp only
  cases (apply host.files).1 with
  | ok u => exact h host
  | error e => exact h host

theorem runFrom_changeAll_eq_ok_iff {apply : FileStore → Except SystemError Unit × FileStore} :
    (changeAll apply).runFrom host = (.ok u, host') ↔
      ∃ files, apply host.files = (.ok (), files) ∧ host' = { host with files } := by
  rw [changeAll, runFrom_bind, runFrom_attempt]
  dsimp only
  rcases apply host.files with ⟨outcome, files⟩
  cases outcome with
  | ok u => simp [eq_comm]
  | error e => simp

/-! ### Writing -/

theorem runFrom_write_eq_ok_iff {path : String} {content : FileContent} :
    (write path content).runFrom host = (.ok u, host') ↔
      ∃ files, host.files.write path content = (.ok (), files) ∧ host' = { host with files } :=
  runFrom_changeAll_eq_ok_iff

/-- `writeIn` does in contexts for the two steps of writing a file what `write` does without, and
says more about what failed. -/
theorem runFrom_writeIn (opening writing : Context) (path : String) (content : FileContent)
    (host : Host) : (writeIn opening writing path content).runFrom host =
      match host.files.create path with
      | .error e => (.error ((Failure.ofCause (.system e)).within opening), host)
      | .ok (place, files) =>
        (match (files.fill place content).1 with
          | .ok () => .ok ()
          | .error e => .error ((Failure.ofCause (.system e)).within writing),
          { host with files := (files.fill place content).2 }) := by
  rw [writeIn, runFrom_bind, runFrom_within, create, runFrom_bind, query, runFrom_bind, runFrom_get]
  dsimp only
  cases host.files.create path with
  | error e => rfl
  | ok opened =>
    obtain ⟨place, files⟩ := opened
    dsimp only [runFrom_pure, runFrom_modify, within_ok]
    rw [runFrom_bind, runFrom_modify]
    dsimp only [runFrom_pure, within_ok]
    rw [runFrom_within, fill, changeAll, runFrom_bind, runFrom_attempt]
    dsimp only
    cases (files.fill place content).1 <;> rfl

theorem runFrom_writeIn_snd (opening writing : Context) (path : String) (content : FileContent)
    (host : Host) : ((writeIn opening writing path content).runFrom host).2 =
      { host with files := (host.files.write path content).2 } := by
  rw [runFrom_writeIn, FileStore.write]
  cases host.files.create path with
  | error e => rfl
  | ok opened => rfl

theorem runFrom_writeIn_eq_ok_iff {opening writing : Context} {path : String}
    {content : FileContent} :
    (writeIn opening writing path content).runFrom host = (.ok u, host') ↔
      (write path content).runFrom host = (.ok u, host') := by
  rw [runFrom_write_eq_ok_iff, runFrom_writeIn, FileStore.write]
  cases host.files.create path with
  | error e => simp
  | ok opened =>
    obtain ⟨place, files⟩ := opened
    dsimp only
    rcases files.fill place content with ⟨outcome, filled⟩
    cases outcome with
    | ok u => simp [eq_comm]
    | error e => simp

/-- What may come of `write` may come of `writeIn`, whatever the contexts for `opening` and
`writing` are. -/
theorem respects_writeIn {R : Host → Host → Prop} {path : String} {content : FileContent}
    (h : Respects R (write path content)) (opening writing : Context) :
    Respects R (writeIn opening writing path content) := by
  intro host
  have hwrite := h host
  rw [runFrom_writeIn_snd]
  rw [write, changeAll, runFrom_bind, runFrom_attempt] at hwrite
  dsimp only at hwrite
  cases houtcome : (host.files.write path content).1 with
  | ok u =>
    rw [houtcome] at hwrite
    exact hwrite
  | error e =>
    rw [houtcome] at hwrite
    exact hwrite

/-! ### Actions that leave the files alone -/

/-- Whether the `files` are the same. -/
def SameFiles (host host' : Host) : Prop :=
  host'.files = host.files

instance : Std.Refl SameFiles := ⟨fun _ => rfl⟩

instance : IsTrans Host SameFiles := ⟨fun _ _ _ h h' => h'.trans h⟩

theorem respects_notice (n : Notice) : Respects SameFiles (notice n) :=
  fun _ => rfl

theorem respects_ofNoted (x : Noted Notice α) : Respects SameFiles (ofNoted x) :=
  fun _ => rfl

/-- `getOrCreate` may build a table from files, which stay the same. -/
theorem respects_getOrCreate {key : String} {build : Action Table} (h : Respects SameFiles build) :
    Respects SameFiles (getOrCreate key build) := by
  refine Respects.get.bind fun host => ?_
  split
  · exact .pure _
  · refine .bind (fun _ => rfl) fun _ => ?_
    exact h.within.bind fun table _ => rfl

/-! ### Actions that leave the tables alone -/

/-- Whether the `tables` of the build are the same. -/
def SameTables (host host' : Host) : Prop :=
  host'.tables = host.tables

instance : Std.Refl SameTables := ⟨fun _ => rfl⟩

instance : IsTrans Host SameTables := ⟨fun _ _ _ h h' => h'.trans h⟩

theorem sameTables_write (path : String) (content : FileContent) :
    Respects SameTables (write path content) :=
  respects_changeAll fun _ => rfl

theorem sameTables_ofNoted (x : Noted Notice α) : Respects SameTables (ofNoted x) :=
  fun _ => rfl

/-! ### Directories -/

/-- What `attempt` does to the files stays done also if it fails, and what is done `next` about the
failure leaves them alone. -/
theorem runFrom_attempt_bind (apply : FileStore → Except SystemError Unit × FileStore)
    {next : Except SystemError Unit → Action Unit}
    (hnext : ∀ outcome host, ∃ host', (next outcome).runFrom host = (.ok (), host') ∧
      host'.files = host.files ∧ host'.tables = host.tables) (host : Host) :
    ∃ host', (attempt apply >>= next).runFrom host = (.ok (), host') ∧
      host'.files = (apply host.files).2 ∧ host'.tables = host.tables := by
  rw [runFrom_bind, runFrom_attempt]
  exact hnext _ _

theorem runFrom_createDirectories_eq_ok {path : String}
    (h : (createDirectories path).runFrom host = (.ok u, host')) :
    host' = { host with files := (host.files.createDirectories path).2 } := by
  obtain ⟨outcome, t, hattempt, h⟩ := runFrom_bind_eq_ok_iff.1 h
  rw [runFrom_attempt, Prod.mk.injEq] at hattempt
  obtain ⟨-, rfl⟩ := hattempt
  cases outcome with
  | ok u => exact (Prod.mk.inj h).2.symm
  | error e => cases h

@[simp]
theorem runFrom_isPresent (path : String) :
    (isPresent path).runFrom host = (.ok (host.files.isPresent path), host) :=
  rfl

/-! ### Tables that are kept -/

/-- `getOrCreate` gives out a table that is kept under `key`, and nothing else happens. -/
theorem runFrom_getOrCreate_of_kept {key : String} {build : Action Table} {shared : SharedTable}
    (hkept : host.tables.get? key = some shared) :
    (getOrCreate key build).runFrom host = (.ok shared, host) := by
  rw [getOrCreate, runFrom_bind, runFrom_get]
  dsimp only
  rw [hkept]
  rfl

/-- `getOrCreate` builds a table that is not there yet with its `key` reserved. If that succeeds the
table is kept, and if it fails the key stays reserved. -/
theorem runFrom_getOrCreate_of_none {key : String} {build : Action Table}
    (hnew : host.tables.get? key = none) :
    (getOrCreate key build).runFrom host =
      match build.runFrom { host with tables := host.tables.reserve key } with
      | (.ok table, t) =>
        (.ok (t.tables.store key table).1, { t with tables := (t.tables.store key table).2 })
      | (.error failure, t) => (.error (failure.within (.buildTable key)), t) := by
  rw [getOrCreate, runFrom_bind, runFrom_get]
  dsimp only
  -- nothing is found, so the key is reserved before anything is built
  rw [hnew]
  dsimp only
  rw [runFrom_bind, runFrom_modify]
  dsimp only
  rw [runFrom_bind, runFrom_within]
  rcases build.runFrom { host with tables := host.tables.reserve key } with ⟨outcome, t⟩
  cases outcome <;> rfl

/-- `getOrCreate` gives out a table that is not there yet exactly if `build` builds it. -/
theorem runFrom_getOrCreate_of_new {key : String} {build : Action Table} {shared : SharedTable}
    (hnew : host.tables.get? key = none) :
    (getOrCreate key build).runFrom host = (.ok shared, host') ↔
      ∃ table t, build.runFrom { host with tables := host.tables.reserve key } = (.ok table, t) ∧
        shared = (t.tables.store key table).1 ∧
        host' = { t with tables := (t.tables.store key table).2 } := by
  rw [runFrom_getOrCreate_of_none hnew]
  constructor
  · intro h
    split at h
    · next table t hbuild =>
      cases h
      exact ⟨table, t, hbuild, rfl, rfl⟩
    · cases h
  · rintro ⟨table, t, hbuild, rfl, rfl⟩
    rw [hbuild]

/-- If `getOrCreate` fails then no table is kept under `key` and `build` fails. -/
theorem runFrom_getOrCreate_eq_error {key : String} {build : Action Table} {failure : Failure}
    (h : (getOrCreate key build).runFrom host = (.error failure, host')) :
    host.tables.get? key = none ∧ ∃ cause,
      build.runFrom { host with tables := host.tables.reserve key } = (.error cause, host') := by
  cases hkept : host.tables.get? key with
  | some shared =>
    rw [runFrom_getOrCreate_of_kept hkept] at h
    cases h
  | none =>
    rw [runFrom_getOrCreate_of_none hkept] at h
    split at h
    · cases h
    · next cause t hbuild =>
      cases h
      exact ⟨rfl, cause, hbuild⟩

end Action

end MappingTables
