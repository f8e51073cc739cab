import MappingTables.Failure

/-!
# Namespaces

A table names everything in one or more namespaces. They have labels and an order; the first one is
the source namespace, in which entries are keyed and descriptors are given. A namespace is referred
to by its position.
-/

namespace MappingTables

/-- The `labels` a table can have: at least one, none empty, and none twice. -/
def ValidLabels (labels : List String) : Prop :=
  labels ≠ [] ∧ "" ∉ labels ∧ labels.Nodup

instance (labels : List String) : Decidable (ValidLabels labels) :=
  inferInstanceAs (Decidable (_ ∧ _ ∧ _))

/-- The namespaces of a table, in order. -/
@[ext]
structure Namespaces where
  /-- The labels; the first one is that of the source namespace. -/
  labels : List String
  /-- The labels tell the namespaces apart. -/
  valid : ValidLabels labels

/-- The first text that also stands before itself. -/
def firstRepeated? (seen : List String) : List String → Option String
  | [] => none
  | x :: rest => if x ∈ seen then some x else firstRepeated? (seen ++ [x]) rest

/-- `firstRepeated?` finds nothing exactly if the texts are distinct, also from those `seen`
before. -/
theorem firstRepeated?_eq_none_iff {seen l : List String} :
    firstRepeated? seen l = none ↔ l.Nodup ∧ ∀ x ∈ l, x ∉ seen := by
  induction l generalizing seen with
  | nil => simp [firstRepeated?]
  | cons x rest ih =>
    by_cases h : x ∈ seen
    · simp [firstRepeated?, h]
    · rw [firstRepeated?, if_neg h, ih, List.nodup_cons]
      grind

namespace Namespaces

instance : DecidableEq Namespaces := fun a b =>
  decidable_of_iff (a.labels = b.labels) Namespaces.ext_iff.symm

/-- The namespaces with the given `labels`. That there are none counts first, then an empty one,
then a repeated one. -/
def ofLabels (labels : List String) : Except Failure Namespaces :=
  if h₀ : labels = [] then fail .noNamespaces
  else if h₁ : "" ∈ labels then fail (.emptyNamespace labels)
  else
    match h₂ : firstRepeated? [] labels with
    | some label => fail (.repeatedNamespace label labels)
    | none => .ok { labels, valid := ⟨h₀, h₁, (firstRepeated?_eq_none_iff.1 h₂).1⟩ }

/-- The number of namespaces: how many `labels` there are. -/
def size (ns : Namespaces) : Nat :=
  ns.labels.length

/-- The label of the source namespace, the first one of the `labels`. -/
def source (ns : Namespaces) : String :=
  ns.labels.headD ""

/-- The label at a `position`. -/
def label (ns : Namespaces) (position : Nat) : String :=
  ns.labels.getD position ""

/-- The position of the namespace with the `label`. -/
def position (ns : Namespaces) (label : String) : Except Failure Nat :=
  match ns.labels.idxOf? label with
  | some i => .ok i
  | none => fail (.namespaceNotFound label ns.labels)

/-- The positions of the namespaces with the `labels`. -/
def positions (ns : Namespaces) (labels : List String) : Except Failure (List Nat) :=
  labels.mapM ns.position

/-- Checks that the `labels` are the expected ones, in that order. -/
def expect (ns : Namespaces) (labels : List String) : Except Failure Unit :=
  if ns.labels = labels then .ok () else fail (.unexpectedNamespaces labels ns.labels)

/-- The namespaces at the given `positions`, in the given order. -/
def pick (ns : Namespaces) (positions : List Nat) : Except Failure Namespaces :=
  ofLabels (positions.map ns.label)

/-- What a `label` is renamed to by a list of old and new labels: the first pair for it counts, and
a label without a pair stays. -/
def renamed (pairs : List (String × String)) (label : String) : String :=
  (pairs.lookup label).getD label

/-- The namespaces under their new labels, all of them `renamed` at once. -/
def rename (ns : Namespaces) (pairs : List (String × String)) : Except Failure Namespaces :=
  within (.renameTable ns.labels pairs) (ofLabels (ns.labels.map (renamed pairs)))

end Namespaces

end MappingTables
