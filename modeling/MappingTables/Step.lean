import MappingTables.Failure

/-!
# Steps

A `Step σ α` is an operation on a state of type `σ` that can fail. What it did to the state before
it failed stays done.

* `Step.onPart`: a step on a part of the state.
-/

namespace MappingTables

/-- An operation on a state of type `σ` that can fail; the state is changed also by one that
fails. -/
abbrev Step (σ α : Type) := ExceptT Failure (StateM σ) α

namespace Step

variable {σ τ α : Type}

/-- What a `step` gives, or how it fails, and the state after it. -/
def runFrom (step : Step σ α) (s : σ) : Except Failure α × σ :=
  (ExceptT.run step).run s

/-- The step with a given outcome `x`, which leaves the state alone. -/
def ofExcept (x : Except Failure α) : Step σ α :=
  ExceptT.mk (pure x)

/-- A step on the part `part` of a state, which `replace` puts back in its place. -/
def onPart (part : σ → τ) (replace : τ → σ → σ) (step : Step τ α) : Step σ α :=
  ExceptT.mk fun s =>
    let (outcome, t) := step.runFrom (part s)
    (outcome, replace t s)

/-- `ofExcept` leaves the state alone. -/
@[simp]
theorem runFrom_ofExcept (x : Except Failure α) (s : σ) : (ofExcept x).runFrom s = (x, s) :=
  rfl

/-- `onPart` of a state changes that part only. -/
@[simp]
theorem runFrom_onPart (part : σ → τ) (replace : τ → σ → σ) (step : Step τ α) (s : σ) :
    (step.onPart part replace).runFrom s =
      ((step.runFrom (part s)).1, replace (step.runFrom (part s)).2 s) :=
  rfl

/-- One step after the other: `next` starts where `step` ended, and does not take place if this
failed. -/
theorem runFrom_bind {β : Type} (step : Step σ α) (next : α → Step σ β) (s : σ) :
    (step >>= next).runFrom s =
      match step.runFrom s with
      | (.ok a, s') => (next a).runFrom s'
      | (.error failure, s') => (.error failure, s') := by
  change (match step s with
    | (outcome, s') => (ExceptT.bindCont next outcome : StateM σ _) s') = _
  change _ = match step s with | (.ok a, s') => _ | (.error failure, s') => _
  rcases step s with ⟨outcome, s'⟩
  cases outcome <;> rfl

/-- `handle` starts where `step` ended that failed. -/
theorem runFrom_tryCatch (step : Step σ α) (handle : Failure → Step σ α) (s : σ) :
    (tryCatch step handle).runFrom s =
      match step.runFrom s with
      | (.ok a, s') => (.ok a, s')
      | (.error failure, s') => (handle failure).runFrom s' := by
  change tryCatch step handle s = match step s with | (.ok a, s') => _ | (.error failure, s') => _
  simp only [tryCatch, tryCatchThe, MonadExceptOf.tryCatch]
  unfold ExceptT.tryCatch ExceptT.mk
  change (StateT.bind step _) s = _
  unfold StateT.bind
  rcases step s with ⟨outcome, s'⟩
  simp only [bind, pure]
  cases outcome <;> rfl

/-- `within` a `context` a step changes the state as it does without. -/
@[simp]
theorem runFrom_within (context : Context) (step : Step σ α) (s : σ) :
    (within context step).runFrom s = (within context (step.runFrom s).1, (step.runFrom s).2) := by
  rw [within, runFrom_tryCatch]
  rcases step.runFrom s with ⟨outcome, s'⟩
  cases outcome <;> rfl

end Step

end MappingTables
