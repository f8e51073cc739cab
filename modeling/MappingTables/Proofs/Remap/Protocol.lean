import MappingTables.Proofs.Remap.Session

/-!
# The protocol of engines

An engine is used in order: it takes over the views first, reads no inputs once it has begun to
write outputs, and is left alone once it has finished. A session keeps to this in every run,
whichever calls its engine fails.

* `IsOrderly`: whether the calls that an engine saw are in order.
* `Session.Transition.rank_le`: no operation takes a session back to an earlier phase.
* `Session.followsProtocol`: what a session keeps to in every run.
-/

namespace MappingTables.Remap

variable {σ : Type} {views : List View} {trace : List Event}

/-- The call to finish, carried out. -/
def finished : Event where
  call := .finish
  succeeded := true

/-- Whether the calls in the `trace` that an engine saw are in order. -/
structure IsOrderly (views : List View) (trace : List Event) : Prop where
  /-- The views are taken over once, and before anything else. -/
  load : ∃ rest, trace = { call := .loadViews views, succeeded := true } :: rest ∧
    ∀ e ∈ rest, ∀ views', e.call ≠ .loadViews views'
  /-- After the first output no inputs are read, whether or not it was written. -/
  inputs : trace.Pairwise fun e e' =>
    ∀ tag output tag' paths, e.call = .apply tag output → e'.call ≠ .readInputs tag' paths
  /-- Nothing comes after the end. -/
  finish : trace.Pairwise fun e _ => e ≠ finished

/-- The position of a `Phase` in the course of a session. -/
def Phase.rank : Phase → Nat
  | created => 0
  | readingInputs => 1
  | remapping => 2
  | closed => 3

namespace Phase

theorem rank_le_closed (phase : Phase) : phase.rank ≤ closed.rank := by
  cases phase <;> decide

theorem rank_le_remapping {phase : Phase} (hclosed : phase ≠ closed) :
    phase.rank ≤ remapping.rank := by
  cases phase with
  | closed => contradiction
  | _ => decide

theorem rank_le_readingInputs {phase : Phase} (hclosed : phase ≠ closed)
    (hremapping : phase ≠ remapping) : phase.rank ≤ readingInputs.rank := by
  cases phase with
  | closed | remapping => contradiction
  | _ => decide

end Phase

namespace IsOrderly

/-- A trace that `IsOrderly` stays so with one more call if this is not to take over views, if the
engine has not finished, and if no output came before inputs. -/
theorem append (h : IsOrderly views trace) {e : Event}
    (hload : ∀ views', e.call ≠ .loadViews views') (hopen : finished ∉ trace)
    (hinputs : ∀ tag paths, e.call = .readInputs tag paths →
      ∀ e' ∈ trace, ∀ tag' output, e'.call ≠ .apply tag' output) :
    IsOrderly views (trace ++ [e]) where
  load := by
    obtain ⟨rest, rfl, hrest⟩ := h.load
    -- what was in order stays so, and only the new event has to be placed
    refine ⟨rest ++ [e], rfl, fun e' he' => ?_⟩
    rcases List.mem_append.1 he' with he' | he'
    · exact hrest e' he'
    · exact List.mem_singleton.1 he' ▸ hload
  inputs := by
    refine List.pairwise_append.2 ⟨h.inputs, List.pairwise_singleton _ e, fun e' he' e'' he'' => ?_⟩
    obtain rfl := List.mem_singleton.1 he''
    exact fun tag output tag' paths happly hread =>
      hinputs tag' paths hread e' he' tag output happly
  finish := by
    refine List.pairwise_append.2 ⟨h.finish, List.pairwise_singleton _ e, fun e' he' _ _ => ?_⟩
    rintro rfl
    exact hopen he'

end IsOrderly

namespace Session

/-- What a session in some `phase` and the calls that its engine saw have to do with each other. -/
structure InStep (views : List View) (phase : Phase) (trace : List Event) : Prop where
  orderly : IsOrderly views trace
  closed_iff : phase = .closed ↔ finished ∈ trace
  /-- Once an output was asked for, the session is past the phase in which inputs are read. -/
  applied :
    ∀ e ∈ trace, ∀ tag output, e.call = .apply tag output → phase = .remapping ∨ phase = .closed

namespace InStep

variable {phase phase' : Phase}

/-- A call that is made while the session is open keeps it `InStep` with its engine. -/
theorem append (h : InStep views phase trace) (hopen : phase ≠ .closed) {e : Event}
    (hload : ∀ views', e.call ≠ .loadViews views')
    (hinputs : ∀ tag paths, e.call = .readInputs tag paths → phase ≠ .remapping)
    (hclosed : phase' = .closed ↔ e = finished)
    (happlied : (phase = .remapping ∨ ∃ tag output, e.call = .apply tag output) →
      phase' = .remapping ∨ phase' = .closed) :
    InStep views phase' (trace ++ [e]) where
  orderly := by
    refine h.orderly.append hload (fun hmem => hopen (h.closed_iff.2 hmem)) ?_
    intro tag paths hread e' he' tag' output happly
    exact (h.applied e' he' tag' output happly).elim (hinputs tag paths hread) hopen
  closed_iff := by
    have hnot : finished ∉ trace := fun hmem => hopen (h.closed_iff.2 hmem)
    rw [hclosed, List.mem_append, List.mem_singleton, or_iff_right hnot, eq_comm]
  applied := by
    intro e' he' tag output happly
    rcases List.mem_append.1 he' with he' | he'
    · exact happlied (.inl ((h.applied e' he' tag output happly).resolve_right hopen))
    · exact happlied (.inr ⟨tag, output, List.mem_singleton.1 he' ▸ happly⟩)

/-- A `Transition` keeps a session `InStep` with its engine. -/
theorem transition {s s' : Session} {op : Operation} {succeeded : Bool} {event : Option Event}
    (h : InStep views s.phase trace) (htransition : s.Transition op succeeded event s') :
    InStep views s'.phase (trace ++ event.toList) := by
  cases htransition with
  -- what the engine is not told of leaves the trace as it is
  | refused hrefusal =>
    rw [Option.toList_none, List.append_nil]
    exact h
  | tagged hopen =>
    rw [Option.toList_none, List.append_nil]
    exact h
  | classpathKnown hopen hknown =>
    rw [Option.toList_none, List.append_nil]
    exact h
  | readInputs hopen hphase =>
    refine h.append hopen (fun _ => nofun) (fun _ _ _ => hphase) ?_ ?_
    · cases succeeded with
      | false => exact ⟨fun hclosed => absurd hclosed hopen, nofun⟩
      | true => exact ⟨nofun, nofun⟩
    · -- no output was asked for before, and these are inputs
      rintro (hremapping | ⟨tag', output, ⟨⟩⟩)
      exact absurd hremapping hphase
  | readClasspath hopen hfresh hne =>
    refine h.append hopen (fun _ => nofun) (fun _ _ => nofun) ?_ ?_
    · exact ⟨fun hclosed => absurd hclosed hopen, nofun⟩
    · rintro (hremapping | ⟨tag', output, ⟨⟩⟩)
      exact .inl hremapping
  | remapped hopen =>
    refine h.append hopen (fun _ => nofun) (fun _ _ => nofun) ?_ fun _ => .inl rfl
    exact ⟨nofun, nofun⟩
  | closed hopen =>
    refine h.append hopen (fun _ => nofun) (fun _ _ => nofun) ?_ ?_
    · cases succeeded with
      | false => exact ⟨fun hclosed => absurd hclosed hopen, nofun⟩
      | true => exact ⟨fun _ => rfl, fun _ => rfl⟩
    · rintro (hremapping | ⟨tag', output, ⟨⟩⟩)
      cases succeeded with
      | false => exact .inl hremapping
      | true => exact .inr rfl

/-- The views of a new session are all that its engine got to know of: they are `InStep`. -/
theorem start : InStep views .created [{ call := .loadViews views, succeeded := true }] where
  orderly := ⟨⟨[], rfl, nofun⟩, List.pairwise_singleton _ _, List.pairwise_singleton _ _⟩
  closed_iff := by simp [finished]
  applied := by
    intro e he tag output happly
    obtain rfl := List.mem_singleton.1 he
    cases happly

end InStep

/-- A session is `InStep` with its engine in every run that it `Reaches`. -/
theorem Reaches.inStep {engine : Engine σ} {done : List (Operation × Bool)}
    {run : Run (σ × List Event)} (h : Reaches engine views done run) :
    InStep views run.session.phase run.trace :=
  h.induction (fun _ s trace => InStep views s.phase trace) .start
    fun _ _ _ _ _ _ _ hs htransition => hs.transition htransition

namespace Transition

variable {s s' : Session} {op : Operation} {succeeded : Bool} {event : Option Event}

/-- No `Transition` takes a session back to a phase of lower `rank`. -/
theorem rank_le (h : s.Transition op succeeded event s') : s.phase.rank ≤ s'.phase.rank := by
  cases h with
  | refused | tagged | classpathKnown | readClasspath => exact Nat.le_refl _
  | readInputs hopen hphase =>
    cases succeeded with
    | false => exact Nat.le_refl _
    | true => exact Phase.rank_le_readingInputs hopen hphase
  | remapped hopen => exact Phase.rank_le_remapping hopen
  | closed hopen =>
    cases succeeded with
    | false => exact Nat.le_refl _
    | true => exact Phase.rank_le_closed s.phase

/-- A `Transition` that fails leaves the phase as it was, unless it was to remap. -/
theorem phase_eq_of_failed (h : s.Transition op false event s')
    (hop : ∀ tag output, op ≠ .remap tag output) : s'.phase = s.phase := by
  cases h with
  | refused | readInputs | readClasspath | closed => rfl
  | remapped => exact absurd rfl (hop _ _)

end Transition

/-- A session keeps its engine in order, in every run that it `Reaches` and whichever calls the
engine fails: the trace `IsOrderly`. The engine sees the views once and first, no inputs after the
first output, and nothing after it finished. The session is closed exactly if its engine finished.
No operation takes it back to a phase of lower `rank`, and one that fails leaves it in its phase,
unless it was to remap. A closed session refuses everything, and the engine does not get to know of
that. -/
theorem followsProtocol {engine : Engine σ} {done : List (Operation × Bool)}
    {run : Run (σ × List Event)} (h : Reaches engine views done run) :
    IsOrderly views run.trace ∧
    (run.session.phase = .closed ↔ finished ∈ run.trace) ∧
    ∀ op outcome run', (Operation.run engine.traced op).runFrom run = (outcome, run') →
      run.session.phase.rank ≤ run'.session.phase.rank ∧
      (∀ failure, outcome = .error failure → (∀ tag output, op ≠ .remap tag output) →
        run'.session.phase = run.session.phase) ∧
      (run.session.phase = .closed → op.isPathless = false →
        outcome = .error (.ofCause (.sessionClosed op.action)) ∧ run' = run) := by
  have hstep := h.inStep
  refine ⟨hstep.orderly, hstep.closed_iff, fun op outcome run' hrun => ?_⟩
  obtain ⟨event, htransition, -⟩ := Operation.transition hrun
  refine ⟨htransition.rank_le, ?_, fun hclosed hpath => ?_⟩
  · rintro failure rfl hop
    exact htransition.phase_eq_of_failed hop
  · exact Prod.mk.inj (hrun.symm.trans (Operation.runFrom_of_closed hpath hclosed))

/-- An engine that writes no outputs. -/
def sampleEngine : Engine Unit
  | .apply _ _ => fail (.reported "no output")
  | _ => return

/-- A session over the `sampleEngine` that reads inputs, fails to remap them, reads no more inputs
after that, and is closed. -/
theorem followsProtocol_sample : ∃ run, Reaches sampleEngine []
      [(.readInputs 0 ["a.jar"], true), (.remap 0 "b.jar", false), (.readInputs 0 ["c.jar"], false),
        (.close, true)] run ∧
    IsOrderly [] run.trace ∧ run.session.phase = .closed ∧
    (Operation.run sampleEngine.traced .close).runFrom run =
      (.error (.ofCause (.sessionClosed .close)), run) := by
  have hreaches : Reaches sampleEngine [] _ _ :=
    ((((Reaches.opened () rfl).next (.readInputs 0 ["a.jar"]) rfl).next (.remap 0 "b.jar") rfl).next
      (.readInputs 0 ["c.jar"]) rfl).next .close rfl
  obtain ⟨horderly, hclosed, hnext⟩ := followsProtocol hreaches
  have hphase := hclosed.2 (by decide)
  obtain ⟨hrefused, hsame⟩ := (hnext .close _ _ rfl).2.2 hphase rfl
  exact ⟨_, hreaches, horderly, hphase, Prod.ext hrefused hsame⟩

end Session

end MappingTables.Remap
