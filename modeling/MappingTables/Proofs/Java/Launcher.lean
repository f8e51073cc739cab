import MappingTables.Java.Launcher
import MappingTables.Proofs.Host
import MappingTables.Proofs.Text.Lines

/-!
# What a launcher starts

Programs are given their arguments as texts without a NUL character; what else the system asks of a
command is its own business, and a parameter of the host. A launcher asks Java for its version
before it starts a program that depends on it.

* `Host.checkCommand_eq_ok_iff`: which commands are run with which arguments.
* `Launcher.Reports`: which version Java says that it is of.
* `Launcher.runFrom_checkVersion`: when a check of the version succeeds.
* `Launcher.CanLaunch`: when a program can be started after that.
* `Launcher.started_launch`, `Launcher.runFrom_launch_eq_error`: it is started exactly then.
-/

namespace MappingTables

open Text Step

/-! ## Commands -/

namespace Host

variable {host : Host} {command : String} {arguments : List String}

/-- A command is run if neither it nor an argument contains a NUL character, and `refuses` has
nothing against it. -/
theorem checkCommand_eq_ok_iff : host.checkCommand command arguments = .ok () ↔
    (∀ part ∈ command :: arguments, Avoids ['\x00'] part) ∧
      host.refuses host.files command arguments = none := by
  have hany : ((command :: arguments).any fun part => '\x00' ∈ part.toList) = true ↔
      ¬∀ part ∈ command :: arguments, Avoids ['\x00'] part := by
    simp only [List.any_eq_true, decide_eq_true_eq, not_forall]
    simp [Avoids]
  rw [checkCommand]
  split
  · next hnul => exact iff_of_false (fun h => by cases h) fun h => hany.1 hnul h.1
  · next hnul =>
    rw [and_iff_right (not_not.1 fun h => hnul (hany.2 h))]
    cases host.refuses host.files command arguments <;> simp

/-- The `host` after a program was run. -/
def ran (host : Host) (arguments : List String) : Host :=
  { host with started := host.started ++ [arguments] }.applyWrite
    (host.respond host.files arguments)

@[simp]
theorem started_applyWrite (host : Host) (response : Response) :
    (host.applyWrite response).started = host.started := by
  unfold applyWrite
  split <;> rfl

@[simp]
theorem started_ran (host : Host) (arguments : List String) :
    (host.ran arguments).started = host.started ++ [arguments] :=
  started_applyWrite _ _

/-- What a host `refuses` after a program `ran` is what it refused before, but for the files on
which that depends. -/
@[simp]
theorem refuses_ran (host : Host) (arguments : List String) :
    (host.ran arguments).refuses = host.refuses := by
  unfold ran applyWrite
  split <;> rfl

/-- Whether nothing was started on the `host` as it was before, or one program with the given
`arguments`. -/
def StartedAtMost (host' host : Host) (arguments : List String) : Prop :=
  host'.started = host.started ∨ host'.started = host.started ++ [arguments]

/-- A program that writes no file changes nothing but the record of what was started: the host is
the one that `ran` it. -/
theorem ran_of_writes (h : (host.respond host.files arguments).writes = none) :
    host.ran arguments = { host with started := host.started ++ [arguments] } := by
  rw [ran, applyWrite, h]

end Host

namespace Action

variable {host : Host} {command : String} {arguments : List String}

theorem runFrom_run_of_ok (h : host.checkCommand command arguments = .ok ()) :
    (run command arguments).runFrom host =
      (.ok (host.respond host.files arguments), host.ran arguments) := by
  rw [run, runFrom_bind, runFrom_get]
  dsimp only
  rw [Host.run, h]
  rfl

theorem runFrom_run_of_error {e : SystemError}
    (h : host.checkCommand command arguments = .error e) :
    (run command arguments).runFrom host = (.error (.ofCause (.system e)), host) := by
  rw [run, runFrom_bind, runFrom_get]
  dsimp only
  rw [Host.run, h]
  rfl

end Action

/-! ## Java -/

namespace Java.Launcher

variable {launcher : Launcher} {program : Program} {required : Nat} {host host' : Host} {u : Unit}

/-- Whether the Java installation says that it is of a `version`. It does not matter how it
exits. -/
def Reports (launcher : Launcher) (host : Host) (version : Nat) : Prop :=
  host.checkCommand launcher.command ["-version"] = .ok () ∧
    ∃ output, decode? (host.respond host.files ["-version"]).stderr.data.toList = some output ∧
      majorVersion output = .ok version

/-- `checkVersion` succeeds if Java says that its version is at least the `required` one, and starts
nothing else. -/
theorem runFrom_checkVersion {outcome : Except Failure Unit}
    (h : (launcher.checkVersion required).runFrom host = (outcome, host')) :
    ((∃ version, launcher.Reports host version ∧ required ≤ version) ∧ outcome = .ok () ∧
        host' = host.ran ["-version"]) ∨
      ((∀ version, launcher.Reports host version → version < required) ∧
        (∃ failure, outcome = .error failure) ∧ host'.StartedAtMost host ["-version"]) := by
  rw [checkVersion, runFrom_bind, runFrom_within] at h
  -- the program may not start, print no text, print no version or print one that is too old
  cases hcheck : host.checkCommand launcher.command ["-version"] with
  | error e =>
    rw [Action.runFrom_run_of_error hcheck] at h
    cases h
    refine .inr ⟨fun version hversion => ?_, ⟨_, rfl⟩, .inl rfl⟩
    rw [Reports, hcheck] at hversion
    cases hversion.1
  | ok =>
    rw [Action.runFrom_run_of_ok hcheck] at h
    dsimp only [within_ok] at h
    cases houtput : decode? (host.respond host.files ["-version"]).stderr.data.toList with
    | none =>
      rw [houtput] at h
      cases h
      refine .inr ⟨fun version hversion => ?_, ⟨_, rfl⟩, .inr (Host.started_ran _ _)⟩
      rw [Reports, houtput] at hversion
      obtain ⟨-, _, hnone, -⟩ := hversion
      cases hnone
    | some output =>
      rw [houtput] at h
      dsimp only at h
      rw [runFrom_bind, runFrom_ofExcept] at h
      have hreports :
          ∀ version, launcher.Reports host version ↔ majorVersion output = .ok version := by
        intro version
        rw [Reports, houtput, hcheck]
        simp
      simp only [hreports]
      cases hmajor : majorVersion output with
      | error failure =>
        rw [hmajor] at h
        cases h
        exact .inr ⟨nofun, ⟨_, rfl⟩, .inr (Host.started_ran _ _)⟩
      | ok version =>
        rw [hmajor] at h
        dsimp only [within_ok] at h
        split at h
        · next hold =>
          cases h
          refine .inr ⟨?_, ⟨_, rfl⟩, .inr (Host.started_ran _ _)⟩
          rintro _ ⟨⟩
          exact hold
        · next hnew =>
          cases h
          exact .inl ⟨⟨version, rfl, Nat.not_lt.1 hnew⟩, rfl, rfl⟩

/-- Whether a program can be started with some `arguments` once Java was asked for its version: it
is new enough, no argument contains a NUL character, and the system does not refuse to start the
`command` of the launcher with them, on the files that are there then. -/
structure CanLaunch (launcher : Launcher) (host : Host) (required : Nat) (arguments : List String) :
    Prop where
  version : ∃ version, launcher.Reports host version ∧ required ≤ version
  avoids : ∀ argument ∈ arguments, Avoids ['\x00'] argument
  starts : host.refuses (host.ran ["-version"]).files launcher.command arguments = none

/-- A program can be started after a version that is new enough exactly if `checkCommand` agrees
then. -/
theorem canLaunch_iff {arguments : List String}
    (hversion : ∃ version, launcher.Reports host version ∧ required ≤ version) :
    launcher.CanLaunch host required arguments ↔
      (host.ran ["-version"]).checkCommand launcher.command arguments = .ok () := by
  rw [Host.checkCommand_eq_ok_iff, Host.refuses_ran]
  constructor
  · rintro ⟨⟨version, ⟨hcheck, -⟩, -⟩, harguments, hstarts⟩
    have hcommand := (Host.checkCommand_eq_ok_iff.1 hcheck).1 _ List.mem_cons_self
    exact ⟨List.forall_mem_cons.2 ⟨hcommand, harguments⟩, hstarts⟩
  · rintro ⟨hparts, hstarts⟩
    exact ⟨hversion, (List.forall_mem_cons.1 hparts).2, hstarts⟩

/-- A `program` that can be started is started once by `launch`, after the question for the
version. -/
theorem started_launch (hrequired : program.minVersion = some required)
    (hcan : launcher.CanLaunch host required program.allArguments) :
    ((launcher.launch program).runFrom host).2.started =
      host.started ++ [["-version"], program.allArguments] := by
  have hstart := (canLaunch_iff hcan.version).1 hcan
  rw [launch, hrequired]
  dsimp only
  rw [runFrom_bind]
  cases hcheck : (launcher.checkVersion required).runFrom host with
  | mk outcome t =>
    -- a version that is new enough is reported, so the check cannot fail
    rcases runFrom_checkVersion hcheck with ⟨-, rfl, rfl⟩ | ⟨hold, -⟩
    · dsimp only
      rw [runFrom_bind, runFrom_within, Action.runFrom_run_of_ok hstart]
      dsimp only [within_ok]
      have hstarted : ((host.ran ["-version"]).ran program.allArguments).started =
          host.started ++ [["-version"], program.allArguments] := by
        rw [Host.started_ran, Host.started_ran, List.append_assoc]
        rfl
      split <;> exact hstarted
    · obtain ⟨version, hreports, hle⟩ := hcan.version
      exact absurd (hold version hreports) (Nat.not_lt.2 hle)

/-- A `program` that cannot be started is not, and that is an error of `launch`. -/
theorem runFrom_launch_eq_error (hrequired : program.minVersion = some required)
    (h : ¬launcher.CanLaunch host required program.allArguments) :
    ∃ failure host', (launcher.launch program).runFrom host = (.error failure, host') ∧
      host'.StartedAtMost host ["-version"] := by
  rw [launch, hrequired]
  dsimp only
  rw [runFrom_bind]
  cases hcheck : (launcher.checkVersion required).runFrom host with
  | mk outcome t =>
    rcases runFrom_checkVersion hcheck with ⟨hversion, rfl, rfl⟩ | ⟨-, ⟨failure, rfl⟩, hstarted⟩
    · dsimp only
      rw [runFrom_bind, runFrom_within]
      cases hstart : (host.ran ["-version"]).checkCommand launcher.command program.allArguments with
      | ok => exact absurd ((canLaunch_iff hversion).2 hstart) h
      | error e =>
        rw [Action.runFrom_run_of_error hstart]
        exact ⟨_, _, rfl, .inr (Host.started_ran _ _)⟩
    · exact ⟨failure, t, rfl, hstarted⟩

end Java.Launcher

end MappingTables
