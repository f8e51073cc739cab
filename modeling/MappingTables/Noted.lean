import MappingTables.Failure

/-!
# Operations with notes

`Noted ν α` is the result of an operation that can fail and takes notes of type `ν` on its way. The
notes taken before a failure are kept.
-/

namespace MappingTables

/-- The outcome of an operation, with the notes of type `ν` taken on the way. -/
structure Noted (ν α : Type) where
  /-- What the operation gives, or how it fails. -/
  outcome : Except Failure α
  /-- The notes, in the order in which they were taken. -/
  notes : List ν

namespace Noted

variable {ν α β : Type}

/-- An operation `x` that takes no notes. -/
def ofExcept (x : Except Failure α) : Noted ν α :=
  { outcome := x, notes := [] }

/-- Takes the note `n`. -/
def note (n : ν) : Noted ν Unit :=
  { outcome := .ok (), notes := [n] }

/-- Takes the note `n` if `p` is the case. -/
def noteIf (p : Prop) [Decidable p] (n : ν) : Noted ν Unit :=
  { outcome := .ok (), notes := if p then [n] else [] }

/-- One operation after the other. What `f` does with the outcome of `x` does not take place if `x`
fails. -/
protected def bind (x : Noted ν α) (f : α → Noted ν β) : Noted ν β :=
  match x.outcome with
  | .ok a => { outcome := (f a).outcome, notes := x.notes ++ (f a).notes }
  | .error failure => { outcome := .error failure, notes := x.notes }

instance : Monad (Noted ν) where
  pure a := ofExcept (.ok a)
  bind := Noted.bind

instance : MonadLift (Except Failure) (Noted ν) where
  monadLift := ofExcept

instance : MonadExceptOf Failure (Noted ν) where
  throw failure := ofExcept (.error failure)
  tryCatch x handle :=
    match x.outcome with
    | .ok _ => x
    | .error failure =>
      { outcome := (handle failure).outcome, notes := x.notes ++ (handle failure).notes }

/-- The same operation with its notes changed into others by `f`. -/
def mapNotes {μ : Type} (f : ν → μ) (x : Noted ν α) : Noted μ α :=
  { outcome := x.outcome, notes := x.notes.map f }

/-- An operation that takes no notes has its own `outcome`. -/
@[simp]
theorem outcome_ofExcept (x : Except Failure α) : (ofExcept x : Noted ν α).outcome = x :=
  rfl

/-- `outcome` of two operations, one after the other: they combine as if no notes were taken. -/
@[simp]
theorem outcome_bind (x : Noted ν α) (f : α → Noted ν β) :
    (x >>= f).outcome = x.outcome >>= fun a => (f a).outcome := by
  change (Noted.bind x f).outcome = _
  unfold Noted.bind
  cases x.outcome <;> rfl

/-- The `outcome` of giving a value. -/
@[simp]
theorem outcome_pure (a : α) : (pure a : Noted ν α).outcome = .ok a :=
  rfl

/-- A context is put around the `outcome` only. -/
@[simp]
theorem outcome_within (context : Context) (x : Noted ν α) :
    (within context x).outcome = within context x.outcome := by
  obtain ⟨outcome, notes⟩ := x
  cases outcome <;> rfl

/-- `mapNotes` leaves the `outcome` alone. -/
@[simp]
theorem outcome_mapNotes {μ : Type} (f : ν → μ) (x : Noted ν α) :
    (x.mapNotes f).outcome = x.outcome :=
  rfl

/-- A `note` alone always succeeds. -/
@[simp]
theorem outcome_note (n : ν) : (note n).outcome = .ok () :=
  rfl

/-- `noteIf` always succeeds, whether the note is taken or not. -/
@[simp]
theorem outcome_noteIf (p : Prop) [Decidable p] (n : ν) : (noteIf p n).outcome = .ok () :=
  rfl

end Noted

end MappingTables
