import MappingTables.Failure

/-!
# Names

What one entry of a table is called: a slot for each namespace, which holds a name or is empty.
-/

namespace MappingTables

/-- A slot for each namespace, in the order of the namespaces. -/
@[ext]
structure Names where
  /-- The slots; `none` stands for an absent name. -/
  slots : List (Option String)
deriving DecidableEq, Repr

namespace Names

/-- Slots in which names are `texts`, and the empty text stands for an absent name. -/
def ofTexts (texts : List String) : Names :=
  { slots := texts.map fun t => if t = "" then none else some t }

/-- The `slots` as names, in which none may be empty. -/
def ofSlots (slots : List (Option String)) : Except Failure Names :=
  if some "" ∈ slots then fail .emptyName else .ok { slots }

/-- A `name` in the first namespace only. -/
def ofFirst (name : String) (size : Nat) : Names :=
  { slots := (List.replicate size none).set 0 (some name) }

/-- The number of `slots`. -/
def size (names : Names) : Nat :=
  names.slots.length

/-- The name at the `position` of a namespace. -/
def get (names : Names) (position : Nat) : Option String :=
  (names.slots[position]?).join

/-- The name in the source namespace, which `get` finds first. -/
def source (names : Names) : Option String :=
  names.get 0

/-- The name in the source namespace, which has to be there among `names`. -/
def requireSource (names : Names) : Except Failure String :=
  match names.slots with
  | [] => fail .noSlots
  | none :: _ => fail .noFirstName
  | some name :: _ => .ok name

/-- The slots with another one at a `position`. -/
def set (names : Names) (position : Nat) (name : Option String) : Names :=
  { slots := names.slots.set position name }

/-- The slots at the given `positions`, in the given order. -/
def pick (names : Names) (positions : List Nat) : Names :=
  { slots := positions.map names.get }

/-- Slots overlaid with later ones: a later name counts, and where there is none the earlier slot
stays. -/
def overlaySlots : List (Option String) → List (Option String) → List (Option String)
  | [], _ => []
  | earlier, [] => earlier
  | a :: earlier, b :: later => b.or a :: overlaySlots earlier later

/-- Names overlaid with `later` ones. -/
def overlay (earlier later : Names) : Names :=
  { slots := overlaySlots earlier.slots later.slots }

/-- Whether there is no name beyond the `source` one. -/
def isSourceOnly (names : Names) : Bool :=
  names.slots.tail.all Option.isNone

/-- Whether a name is missing at `target` that is there at `fallback`. -/
def isFillable (target fallback : Nat) (names : Names) : Bool :=
  (names.get target).isNone && (names.get fallback).isSome

/-- The names with a missing one at `target` filled in from `fallback`. -/
def fill (target fallback : Nat) (names : Names) : Names :=
  if names.isFillable target fallback then names.set target (names.get fallback) else names

end Names

end MappingTables
