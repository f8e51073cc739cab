import MappingTables.Proofs.Host
import MappingTables.Remap.Session

/-!
# What a session does

A session is asked to do one thing after another, and its engine may fail at any of them. Seen from
outside, it is an automaton: what was asked, whether it succeeded, and the call that the engine saw.

* `Operation`: what a session is asked to do.
* `Session.Transition`: what an operation does to a session, whatever the engine makes of its call.
* `Operation.transition`: operations do nothing else.
* `Session.Reaches`: what is reached from a new session by any number of operations.
-/

namespace MappingTables.Remap

open Step

variable {σ : Type}

/-! ## Operations -/

/-- What a session is asked to do. -/
inductive Operation where
  /-- Give the tag for a file. A path that is not absolute starts at the working directory. -/
  | giveTag (workingDirectory path : String)
  | readInputs (tag : Tag) (paths : List String)
  | readClasspath (paths : List String)
  | remap (tag : Tag) (output : String)
  | close
deriving DecidableEq

namespace Operation

/-- Carries out an `Operation` over an `engine`. -/
def run (engine : Engine σ) : Operation → Step (Run σ) Unit
  | giveTag workingDirectory path => do
    let _ ← Session.tag workingDirectory path
  | readInputs tag paths => Session.readInputs engine tag paths
  | readClasspath paths => Session.readClasspath engine paths
  | remap tag output => Session.remap engine tag output
  | close => Session.close engine

/-- What an `Operation` is called when it is refused: the `SessionAction`. -/
def action : Operation → SessionAction
  | giveTag _ _ => .createTags
  | readInputs _ _ => .readInputs
  | readClasspath _ => .readClasspath
  | remap _ _ => .remap
  | close => .close

/-- Whether an `Operation` is to give a tag for the empty path. -/
def isPathless : Operation → Bool
  | giveTag _ path => path = ""
  | _ => false

/-- Whether an `Operation` reads inputs. -/
def readsInputs : Operation → Bool
  | readInputs _ _ => true
  | _ => false

/-- Why an operation is refused in a `phase`, if it is. -/
def refusal? (phase : Phase) (op : Operation) : Option Failure :=
  if op.isPathless then some (.within (.makeAbsolute "") (.ofCause .emptyPath))
  else if phase = .remapping ∧ op.readsInputs then some (.ofCause .remappingStarted)
  else if phase = .closed then some (.ofCause (.sessionClosed op.action))
  else none

end Operation

/-! ## What the operations do -/

namespace Session

variable (engine : Engine σ) (run : Run σ)

@[simp]
theorem runFrom_change (f : Session → Session) :
    (change f).runFrom run = (.ok (), { run with session := f run.session }) :=
  rfl

@[simp]
theorem runFrom_perform (call : Call) :
    (perform engine call).runFrom run = (((engine call).runFrom run.engine).1,
      { run with engine := ((engine call).runFrom run.engine).2 }) :=
  rfl

@[simp]
theorem runFrom_requireOpen (action : SessionAction) :
    (requireOpen action).runFrom run = (if run.session.phase = .closed then
      .error (.ofCause (.sessionClosed action)) else .ok (), run) := by
  rw [requireOpen, runFrom_bind, runFrom_get]
  dsimp only
  split <;> rfl

/-- A session that is not closed goes on after `requireOpen`. -/
theorem runFrom_requireOpen_bind {α : Type} {action : SessionAction} {next : Unit → Step (Run σ) α}
    {run : Run σ} (hopen : run.session.phase ≠ .closed) :
    (requireOpen action >>= next).runFrom run = (next ()).runFrom run := by
  rw [runFrom_bind, runFrom_requireOpen, if_neg hopen]

/-- A session that is closed does not go on after `requireOpen`. -/
theorem runFrom_requireOpen_bind_of_closed {α : Type} {action : SessionAction}
    {next : Unit → Step (Run σ) α} {run : Run σ} (hclosed : run.session.phase = .closed) :
    (requireOpen action >>= next).runFrom run =
      (.error (.ofCause (.sessionClosed action)), run) := by
  rw [runFrom_bind, runFrom_requireOpen, if_pos hclosed]

section Open

variable {engine : Engine σ} {run : Run σ} {outcome : Except Failure Unit} {state : σ}
  (hopen : run.session.phase ≠ .closed)

include hopen

theorem runFrom_tag_of_open (workingDirectory : String) {path : String} (hpath : path ≠ "") :
    ∃ tag tags, (Session.tag workingDirectory path).runFrom run =
      (.ok tag, { run with session := { run.session with tags } }) := by
  obtain ⟨absolute, habsolute⟩ : ∃ absolute, Path.absolute? workingDirectory path = some absolute :=
    ⟨_, if_neg hpath⟩
  rw [Session.tag, habsolute]
  dsimp only
  rw [runFrom_requireOpen_bind hopen]
  change ∃ tag tags, (Except.ok (run.session.tagFor absolute).1,
    { run with session := (run.session.tagFor absolute).2 }) = _
  unfold tagFor
  cases run.session.tags.get? (Path.form absolute) with
  | some tag => exact ⟨tag, run.session.tags, rfl⟩
  | none => exact ⟨_, _, rfl⟩

theorem runFrom_readInputs_of_open {tag : Tag} {paths : List String}
    (hphase : run.session.phase ≠ .remapping)
    (hcall : (engine (.readInputs tag paths)).runFrom run.engine = (outcome, state)) :
    (readInputs engine tag paths).runFrom run = (outcome,
      { session := if outcome.isOk then run.session.withPhase .readingInputs else run.session
        engine := state }) := by
  rw [readInputs, runFrom_bind, runFrom_get]
  dsimp only
  rw [if_neg hphase, runFrom_requireOpen_bind hopen, runFrom_bind, runFrom_perform, hcall]
  cases outcome <;> rfl

theorem runFrom_readClasspath_of_known {paths : List String}
    (hknown : freshPaths run.session.classpath paths = []) :
    (readClasspath engine paths).runFrom run = (.ok (), run) := by
  have hsame : run.session.withClasspath [] = run.session := by
    rw [withClasspath, List.map_nil, List.append_nil]
  rw [readClasspath, runFrom_requireOpen_bind hopen, runFrom_bind, runFrom_get]
  dsimp only
  rw [hknown, runFrom_bind, runFrom_change, hsame]
  rfl

/-- The paths that `readClasspath` asks for count as known whether or not the engine reads them. -/
theorem runFrom_readClasspath_of_fresh {paths fresh : List String}
    (hfresh : freshPaths run.session.classpath paths = fresh) (hne : fresh ≠ [])
    (hcall : (engine (.readClasspath fresh)).runFrom run.engine = (outcome, state)) :
    (readClasspath engine paths).runFrom run =
      (outcome, { session := run.session.withClasspath fresh, engine := state }) := by
  rw [readClasspath, runFrom_requireOpen_bind hopen, runFrom_bind, runFrom_get]
  dsimp only
  rw [hfresh, if_pos hne, runFrom_bind, runFrom_change]
  dsimp only
  rw [runFrom_perform, hcall]

/-- `remap` changes the phase before the engine is called, so also if it fails. -/
theorem runFrom_remap_of_open {tag : Tag} {output : String}
    (hcall : (engine (.apply tag output)).runFrom run.engine = (outcome, state)) :
    (remap engine tag output).runFrom run = (within (.remapTo output) outcome,
      { session := run.session.withPhase .remapping, engine := state }) := by
  rw [remap, runFrom_requireOpen_bind hopen, runFrom_bind, runFrom_change]
  dsimp only
  rw [runFrom_within, runFrom_perform, hcall]

theorem runFrom_close_of_open (hcall : (engine .finish).runFrom run.engine = (outcome, state)) :
    (close engine).runFrom run = (outcome,
      { session := if outcome.isOk then run.session.ended else run.session, engine := state }) := by
  rw [close, runFrom_requireOpen_bind hopen, runFrom_bind, runFrom_perform, hcall]
  cases outcome <;> rfl

end Open

end Session

/-! ## Refusals -/

namespace Operation

variable {engine : Engine σ} {op : Operation} {run : Run σ} {failure : Failure}

/-- `run` refuses every operation on a closed session, and neither the session nor the engine gets
to know of it. -/
theorem runFrom_of_closed (hpath : op.isPathless = false) (hclosed : run.session.phase = .closed) :
    (op.run engine).runFrom run = (.error (.ofCause (.sessionClosed op.action)), run) := by
  cases op with
  | giveTag workingDirectory path =>
    have hne : path ≠ "" := of_decide_eq_false hpath
    obtain ⟨absolute, habsolute⟩ :
        ∃ absolute, Path.absolute? workingDirectory path = some absolute := ⟨_, if_neg hne⟩
    change (Session.tag workingDirectory path >>= _).runFrom run = _
    rw [Session.tag, habsolute, runFrom_bind]
    dsimp only
    rw [Session.runFrom_requireOpen_bind_of_closed hclosed]
    rfl
  | readInputs tag paths =>
    change (Session.readInputs engine tag paths).runFrom run = _
    rw [Session.readInputs, runFrom_bind, runFrom_get]
    dsimp only
    rw [if_neg (by rw [hclosed]; decide), Session.runFrom_requireOpen_bind_of_closed hclosed]
    rfl
  | readClasspath paths => exact Session.runFrom_requireOpen_bind_of_closed hclosed
  | remap tag output => exact Session.runFrom_requireOpen_bind_of_closed hclosed
  | close => exact Session.runFrom_requireOpen_bind_of_closed hclosed

/-- An operation for which `refusal?` has a reason fails, and neither the session nor the engine
gets to know of it. -/
theorem runFrom_of_refusal (h : op.refusal? run.session.phase = some failure) :
    (op.run engine).runFrom run = (.error failure, run) := by
  unfold refusal? at h
  -- the reasons in the order in which an operation looks at them
  split_ifs at h with hpath hinputs hclosed
  · cases op with
    | giveTag workingDirectory path =>
      obtain rfl : path = "" := of_decide_eq_true hpath
      cases h
      rfl
    | _ => cases hpath
  · obtain ⟨hphase, hinputs⟩ := hinputs
    cases op with
    | readInputs tag paths =>
      change (Session.readInputs engine tag paths).runFrom run = _
      rw [Session.readInputs, runFrom_bind, runFrom_get]
      dsimp only
      rw [if_pos hphase]
      cases h
      rfl
    | _ => cases hinputs
  · cases h
    exact runFrom_of_closed (Bool.eq_false_iff.2 hpath) hclosed

/-- An operation for which `refusal?` has no reason is not about the empty path, reads no inputs
after the first output, and finds the session open. -/
theorem open_of_refusal {phase : Phase} (h : op.refusal? phase = none) :
    op.isPathless = false ∧ ¬(phase = .remapping ∧ op.readsInputs) ∧ phase ≠ .closed := by
  unfold refusal? at h
  split_ifs at h with hpath hinputs hclosed
  exact ⟨Bool.eq_false_iff.2 hpath, hinputs, hclosed⟩

end Operation

/-! ## The automaton -/

namespace Session

/-- What an `Operation` does to a session: whether it succeeds, the call that the engine sees, if
any, and the session afterwards. Whether the engine carries the call out is up to the engine. -/
inductive Transition (s : Session) : Operation → Bool → Option Event → Session → Prop where
  | refused {op : Operation} {failure : Failure} (h : op.refusal? s.phase = some failure) :
    Transition s op false none s
  | tagged {workingDirectory path : String} {tags : OrderedMap Path.Form Tag}
    (hopen : s.phase ≠ .closed) :
    Transition s (.giveTag workingDirectory path) true none { s with tags }
  | readInputs {tag : Tag} {paths : List String} {succeeded : Bool} (hopen : s.phase ≠ .closed)
    (hphase : s.phase ≠ .remapping) :
    Transition s (.readInputs tag paths) succeeded
      (some { call := .readInputs tag paths, succeeded })
      (if succeeded then s.withPhase .readingInputs else s)
  | classpathKnown {paths : List String} (hopen : s.phase ≠ .closed)
    (hknown : freshPaths s.classpath paths = []) :
    Transition s (.readClasspath paths) true none s
  | readClasspath {paths fresh : List String} {succeeded : Bool} (hopen : s.phase ≠ .closed)
    (hfresh : freshPaths s.classpath paths = fresh) (hne : fresh ≠ []) :
    Transition s (.readClasspath paths) succeeded
      (some { call := .readClasspath fresh, succeeded }) (s.withClasspath fresh)
  | remapped {tag : Tag} {output : String} {succeeded : Bool} (hopen : s.phase ≠ .closed) :
    Transition s (.remap tag output) succeeded (some { call := .apply tag output, succeeded })
      (s.withPhase .remapping)
  | closed {succeeded : Bool} (hopen : s.phase ≠ .closed) :
    Transition s .close succeeded (some { call := .finish, succeeded })
      (if succeeded then s.ended else s)

end Session

/-- The calls that the engine of a session has seen in a `run`. -/
abbrev Run.trace (run : Run (σ × List Event)) : List Event :=
  run.engine.2

/-- What `run` does is a `Transition`, and the engine sees the call of this transition. -/
theorem Operation.transition {engine : Engine σ} {op : Operation} {run run' : Run (σ × List Event)}
    {outcome : Except Failure Unit} (h : (op.run engine.traced).runFrom run = (outcome, run')) :
    ∃ event, run.session.Transition op outcome.isOk event run'.session ∧
      run'.trace = run.trace ++ event.toList := by
  obtain ⟨s, state, trace⟩ := run
  cases hrefusal : op.refusal? s.phase with
  | some failure =>
    rw [runFrom_of_refusal hrefusal] at h
    cases h
    exact ⟨none, .refused hrefusal, (List.append_nil _).symm⟩
  | none =>
    obtain ⟨hpath, hinputs, hopen⟩ := open_of_refusal hrefusal
    -- what the engine makes of a call is noted down as it is
    have hcall : ∀ call, ∃ outcome state', (engine.traced call).runFrom (state, trace) =
        (outcome, (state', trace ++ [{ call, succeeded := outcome.isOk }])) :=
      fun call => ⟨_, _, Engine.runFrom_traced engine call state trace⟩
    cases op with
    | giveTag workingDirectory path =>
      have hopen' : ({ session := s, engine := (state, trace) } : Run _).session.phase ≠ .closed :=
        hopen
      obtain ⟨tag, tags, htag⟩ :=
        Session.runFrom_tag_of_open hopen' workingDirectory (of_decide_eq_false hpath)
      change (Session.tag workingDirectory path >>= _).runFrom _ = _ at h
      rw [runFrom_bind, htag] at h
      cases h
      exact ⟨none, .tagged hopen, (List.append_nil _).symm⟩
    | readInputs tag paths =>
      have hphase : s.phase ≠ .remapping := fun hphase => hinputs ⟨hphase, rfl⟩
      obtain ⟨outcome, state', hcall⟩ := hcall (.readInputs tag paths)
      cases (Session.runFrom_readInputs_of_open hopen hphase hcall).symm.trans h
      exact ⟨_, .readInputs hopen hphase, rfl⟩
    | readClasspath paths =>
      cases hfresh : freshPaths s.classpath paths with
      | nil =>
        -- with nothing fresh the engine is not called at all
        cases (Session.runFrom_readClasspath_of_known hopen hfresh).symm.trans h
        exact ⟨none, .classpathKnown hopen hfresh, (List.append_nil _).symm⟩
      | cons p fresh =>
        obtain ⟨outcome, state', hcall⟩ := hcall (.readClasspath (p :: fresh))
        have hne : p :: fresh ≠ [] := List.cons_ne_nil p fresh
        cases (Session.runFrom_readClasspath_of_fresh hopen hfresh hne hcall).symm.trans h
        exact ⟨_, .readClasspath hopen hfresh hne, rfl⟩
    | remap tag output =>
      obtain ⟨outcome, state', hcall⟩ := hcall (.apply tag output)
      cases (Session.runFrom_remap_of_open hopen hcall).symm.trans h
      -- the failure that the caller sees is not the one of the engine, but both fail
      refine ⟨some { call := .apply tag output, succeeded := outcome.isOk }, ?_, rfl⟩
      rw [isOk_within]
      exact .remapped hopen
    | close =>
      obtain ⟨outcome, state', hcall⟩ := hcall .finish
      cases (Session.runFrom_close_of_open hopen hcall).symm.trans h
      exact ⟨_, .closed hopen, rfl⟩

/-! ## Runs -/

namespace Session

/-- `open` makes a session if the engine takes over the views, which is the first call that it
sees. -/
theorem runFrom_open_eq_ok {engine : Engine σ} {views : List View} {state : σ} {s : Session}
    {engineState : σ × List Event}
    (h : (Session.open engine.traced views).runFrom (state, []) = (.ok s, engineState)) :
    s = { views } ∧ engineState.2 = [{ call := .loadViews views, succeeded := true }] := by
  obtain ⟨u, t, hload, hs⟩ := runFrom_bind_eq_ok_iff.1 h
  rw [runFrom_within_eq_ok_iff, Engine.runFrom_traced, Prod.mk.injEq] at hload
  obtain ⟨hok, rfl⟩ := hload
  cases hs
  rw [hok]
  exact ⟨rfl, rfl⟩

/-- Whether a new session gets to a state by each `Operation` that was carried out, one after the
other, each of which succeeded or failed as noted. A failure does not end a run. -/
inductive Reaches (engine : Engine σ) (views : List View) :
    List (Operation × Bool) → Run (σ × List Event) → Prop where
  | opened (state : σ) {s : Session} {engineState : σ × List Event}
    (h : (Session.open engine.traced views).runFrom (state, []) = (.ok s, engineState)) :
    Reaches engine views [] { session := s, engine := engineState }
  | next {done : List (Operation × Bool)} {run run' : Run (σ × List Event)}
    {outcome : Except Failure Unit} (before : Reaches engine views done run) (op : Operation)
    (h : (op.run engine.traced).runFrom run = (outcome, run')) :
    Reaches engine views (done ++ [(op, outcome.isOk)]) run'

/-- What `P` says of a new session, and each `Transition` keeps, holds after any number of
operations. -/
theorem Reaches.induction {engine : Engine σ} {views : List View} {done : List (Operation × Bool)}
    {run : Run (σ × List Event)} (h : Reaches engine views done run)
    (P : List (Operation × Bool) → Session → List Event → Prop)
    (hstart : P [] { views } [{ call := .loadViews views, succeeded := true }])
    (hnext : ∀ done op succeeded event s s' trace, P done s trace →
      s.Transition op succeeded event s' →
        P (done ++ [(op, succeeded)]) s' (trace ++ event.toList)) :
    P done run.session run.trace := by
  induction h with
  | opened state h =>
    obtain ⟨rfl, htrace⟩ := runFrom_open_eq_ok h
    rw [Run.trace, htrace]
    exact hstart
  | next before op h ih =>
    obtain ⟨event, htransition, htrace⟩ := Operation.transition h
    rw [htrace]
    exact hnext _ _ _ _ _ _ _ ih htransition

end Session

end MappingTables.Remap
