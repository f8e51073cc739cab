import MappingTables.Table

/-!
# The tables of a build

A `Service` keeps the tables that were built during one build under their keys, so that each is
built once. A key is reserved when its table is about to be built; if that fails, the reservation
stays, and is as good as none.

* `Service.get?`: the table under a key.
* `Service.reserve`, `Service.store`: what happens before and after a table is built.
-/

namespace MappingTables

/-- A table that is shared by all who ask a `Service` for it. -/
structure SharedTable where
  /-- Tells the table apart from all others that the service built. -/
  serial : Nat
  table : Table
deriving DecidableEq

/-- The tables of a build. -/
structure Service where
  /-- The tables by their keys; `none` where one was about to be built. -/
  slots : OrderedMap String (Option SharedTable) := ∅
  /-- How many tables were built so far. -/
  built : Nat := 0
deriving DecidableEq

namespace Service

/-- The table under a `key`. -/
def get? (s : Service) (key : String) : Option SharedTable :=
  (s.slots.get? key).join

/-- The number of tables in the `slots`. -/
def size (s : Service) : Nat :=
  s.slots.values.countP Option.isSome

/-- Whether there are no tables: their number, by `size`, is zero. -/
def isEmpty (s : Service) : Bool :=
  s.size == 0

/-- The service without any tables in its `slots`. -/
def clear (s : Service) : Service :=
  { s with slots := ∅ }

/-- The service with a `key` reserved, if it is not taken. -/
def reserve (s : Service) (key : String) : Service :=
  { s with slots := s.slots.upsert key Option.join }

/-- The service with a new `table` under a `key`. -/
def store (s : Service) (key : String) (table : Table) : SharedTable × Service :=
  let shared := { serial := s.built, table }
  (shared, { slots := s.slots.insert key (some shared), built := s.built + 1 })

end Service

end MappingTables
