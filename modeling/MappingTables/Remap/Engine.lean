import MappingTables.Remap.View
import MappingTables.Step

/-!
# Remapping engines

An engine is something that remaps classes. It is told what to do by calls, each of which it carries
out or fails, and keeps what it needs in a state of its own.

* `Engine.traced`: an engine that also keeps a record of its calls.
-/

namespace MappingTables.Remap

/-- Identifies a group of inputs that are remapped to one output. -/
abbrev Tag := Nat

/-- What an engine is told to do. -/
inductive Call where
  /-- Take over the renames. This comes first, and once. -/
  | loadViews (views : List View)
  /-- Read inputs that belong to a tag. -/
  | readInputs (tag : Tag) (paths : List String)
  /-- Read what the inputs refer to. -/
  | readClasspath (paths : List String)
  /-- Remap the inputs of a tag, and write them to the output. -/
  | apply (tag : Tag) (output : String)
  /-- Let go of everything. -/
  | finish
deriving DecidableEq

/-- Something that remaps classes, with a state of type `σ`. -/
abbrev Engine (σ : Type) := Call → Step σ Unit

/-- A call and whether it was carried out. -/
structure Event where
  call : Call
  succeeded : Bool
deriving DecidableEq

namespace Engine

variable {σ : Type}

/-- The `engine` with a record of its calls, the first one first. -/
def traced (engine : Engine σ) : Engine (σ × List Event) := fun call =>
  ExceptT.mk fun (s, trace) =>
    let (outcome, s) := (engine call).runFrom s
    (outcome, (s, trace ++ [{ call, succeeded := outcome.isOk }]))

/-- An engine that is `traced` does what the engine does, and notes it down. -/
@[simp]
theorem runFrom_traced (engine : Engine σ) (call : Call) (s : σ) (trace : List Event) :
    (engine.traced call).runFrom (s, trace) =
      (((engine call).runFrom s).1,
        (((engine call).runFrom s).2,
          trace ++ [{ call, succeeded := ((engine call).runFrom s).1.isOk }])) :=
  rfl

end Engine

end MappingTables.Remap
