import Mathlib.Data.Finmap
import MappingTables.Proofs.Host

/-!
# The tables of a build as a plain map

A service keeps more than its tables: a key that was reserved for a table which could not be built
stays reserved until the service is cleared. Nobody can tell. Whatever a service is asked, and in
whatever order, it answers like a map from keys to tables that knows nothing of reserved keys.

* `Surroundings`, `Factory`: what a table is built from, and how.
* `Service.Request`, `Service.Answer`: what a service is asked, and what it answers.
* `Service.Request.answer`: the answer of the service of a host.
* `TableMap`, `Service.Request.answerOfMap`: a plain map from keys to tables, and its answer.
* `TableMap.of`: the map that a service stands for.
* `Service.answerAll_refines_map`: the two give the same answers to any requests.

## Implementation notes

A table is never built from the tables that are there: its factory works on the surroundings, which
are a host without any tables, and it is the service that puts the tables back.
-/

namespace MappingTables

/-! ## Factories -/

/-- All that a table is built from: a `Host`, apart from its tables. -/
def Surroundings : Type :=
  { host : Host // host.tables = {} }

namespace Surroundings

/-- What there is next to the tables of a `host`. -/
def of (host : Host) : Surroundings :=
  ⟨{ host with tables := {} }, rfl⟩

/-- The host with these surroundings and the given `tables`. -/
def withTables (w : Surroundings) (tables : Service) : Host :=
  { w.1 with tables }

@[simp]
theorem tables_withTables (w : Surroundings) (tables : Service) :
    (w.withTables tables).tables = tables :=
  rfl

@[simp]
theorem of_withTables (w : Surroundings) (tables : Service) : of (w.withTables tables) = w := by
  obtain ⟨host, hempty⟩ := w
  apply Subtype.ext
  show { host with tables := {} } = host
  rw [← hempty]

/-- The tables do not belong to the surroundings that `of` takes from a host. -/
@[simp]
theorem of_tables (host : Host) (tables : Service) : of { host with tables } = of host :=
  rfl

end Surroundings

/-- How a table is built from its `Surroundings`. What a factory did before it failed stays done. -/
abbrev Factory : Type :=
  Step Surroundings Table

/-- Builds a table on a host, whose tables the `factory` does not get to see. -/
def Factory.onHost (factory : Factory) : Action Table :=
  Step.onPart Surroundings.of (fun w host => w.withTables host.tables) factory

namespace Service

/-! ## Requests -/

/-- What a service is asked. -/
inductive Request where
  /-- The table under a key, which the factory builds if there is none. -/
  | getOrCreate (key : String) (factory : Factory)
  | get (key : String)
  | size
  | isEmpty
  | clear

/-- What a service answers. -/
inductive Answer where
  /-- A table that was there or was built, or why it could not be built. -/
  | created (outcome : Except Failure SharedTable)
  | found (shared : Option SharedTable)
  | size (n : Nat)
  | isEmpty (b : Bool)
  | cleared

/-- Answers a `Request` from the service of a host. -/
def Request.answer : Request → Host → Answer × Host
  | getOrCreate key factory, host =>
    let (outcome, host) := (Action.getOrCreate key factory.onHost).runFrom host
    (.created outcome, host)
  | get key, host => (.found (host.tables.get? key), host)
  | size, host => (.size host.tables.size, host)
  | isEmpty, host => (.isEmpty host.tables.isEmpty, host)
  | clear, host => (.cleared, { host with tables := host.tables.clear })

/-- Answers one request after the other by `answer`. A table that cannot be built does not end
that. -/
def answerAll {σ : Type} (answer : Request → σ → Answer × σ) :
    List Request → σ → List Answer × σ
  | [], s => ([], s)
  | request :: rest, s =>
    let (first, s) := answer request s
    let (others, s) := answerAll answer rest s
    (first :: others, s)

end Service

/-! ## The plain map -/

/-- Tables by their keys, with the `Surroundings` from which they are built. -/
structure TableMap where
  stored : Finmap fun _ : String => SharedTable
  /-- How many tables were built so far, which is the number that the next one gets. -/
  built : Nat
  surroundings : Surroundings

namespace Service

/-- Answers a `Request` from a plain map. The factory is run only if there is no table under the
key, and if it fails then nothing is stored. -/
def Request.answerOfMap : Request → TableMap → Answer × TableMap
  | getOrCreate key factory, m =>
    match m.stored.lookup key with
    | some shared => (.created (.ok shared), m)
    | none =>
      match factory.runFrom m.surroundings with
      | (.ok table, surroundings) =>
        let shared := { serial := m.built, table }
        (.created (.ok shared),
          { stored := m.stored.insert key shared, built := m.built + 1, surroundings })
      | (.error failure, surroundings) =>
        (.created (.error (failure.within (.buildTable key))), { m with surroundings })
  | get key, m => (.found (m.stored.lookup key), m)
  | size, m => (.size m.stored.keys.card, m)
  | isEmpty, m => (.isEmpty (m.stored.keys = ∅), m)
  | clear, m => (.cleared, { m with stored := ∅ })

/-! ## The map of a service -/

/-- The tables with their keys, in the order in which the keys were reserved among the `slots`. -/
def storedEntries (s : Service) : List (Σ _ : String, SharedTable) :=
  s.slots.entries.filterMap fun (key, slot) => slot.map (Sigma.mk key)

theorem nodupKeys_storedEntries (s : Service) : s.storedEntries.NodupKeys := by
  rw [List.nodupKeys_iff_pairwise, storedEntries, List.pairwise_filterMap]
  have hkeys : s.slots.entries.Pairwise fun e e' => e.1 ≠ e'.1 :=
    List.pairwise_map.1 s.slots.nodup_keys
  apply hkeys.imp
  -- a table has the key of its slot
  simp only [Option.map_eq_some_iff, forall_exists_index, and_imp]
  rintro e e' hne _ _ _ rfl _ _ _ rfl
  exact hne

/-- The tables by their keys, from the `storedEntries`. Keys that are only reserved are not among
them. -/
def stored (s : Service) : Finmap fun _ : String => SharedTable :=
  AList.toFinmap ⟨s.storedEntries, s.nodupKeys_storedEntries⟩

@[simp]
theorem stored_empty : ({} : Service).stored = ∅ :=
  rfl

@[simp]
theorem lookup_stored (s : Service) (key : String) : s.stored.lookup key = s.get? key := by
  -- a table is under a key on either side if the slot of that key holds it
  ext shared
  rw [stored, Finmap.lookup_toFinmap, ← Option.mem_def, AList.mem_lookup_iff, get?,
    Option.join_eq_some_iff, OrderedMap.get?_eq_some_iff]
  simp [storedEntries]

/-- Services in which `get?` finds the same tables under all keys have the same map `stored`. -/
theorem stored_eq_of_get? {s s' : Service} (h : ∀ key, s.get? key = s'.get? key) :
    s.stored = s'.stored := by
  apply Finmap.ext_lookup
  simpa using h

theorem card_keys_stored (s : Service) : s.stored.keys.card = s.size := by
  -- the keys of the map are those of the entries, and none of these is there twice
  have hlength : s.stored.keys.card = s.storedEntries.length := by
    rw [Finset.card, stored, Finmap.keys_val]
    simp [AList.keys, List.keys]
  rw [hlength, storedEntries, size, OrderedMap.values, List.countP_map,
    List.length_filterMap_eq_countP]
  simp [Function.comp_def]

theorem isEmpty_iff (s : Service) : s.isEmpty ↔ s.stored.keys = ∅ := by
  rw [isEmpty, ← card_keys_stored, beq_iff_eq, Finset.card_eq_zero]

/-! ### Changes -/

@[simp]
theorem built_reserve (s : Service) (key : String) : (s.reserve key).built = s.built :=
  rfl

@[simp]
theorem store_fst (s : Service) (key : String) (table : Table) :
    (s.store key table).1 = { serial := s.built, table } :=
  rfl

@[simp]
theorem built_store (s : Service) (key : String) (table : Table) :
    (s.store key table).2.built = s.built + 1 :=
  rfl

/-- `reserve` of a key leaves no trace in the map `stored`. -/
@[simp]
theorem stored_reserve (s : Service) (key : String) : (s.reserve key).stored = s.stored :=
  stored_eq_of_get? (s.get?_reserve key)

theorem stored_store (s : Service) (key : String) (table : Table) :
    (s.store key table).2.stored = s.stored.insert key { serial := s.built, table } := by
  apply Finmap.ext_lookup
  intro other
  rw [lookup_stored]
  by_cases h : other = key
  · rw [h, get?_store_self, store_fst, Finmap.lookup_insert]
  · rw [get?_store_of_ne h, Finmap.lookup_insert_of_ne _ h, lookup_stored]

end Service

/-- The map that the service of a `host` stands for. -/
def TableMap.of (host : Host) : TableMap where
  stored := host.tables.stored
  built := host.tables.built
  surroundings := .of host

/-- A new service stands for the empty `TableMap`. -/
@[simp]
theorem TableMap.of_new (w : Surroundings) :
    of (w.withTables {}) = { stored := ∅, built := 0, surroundings := w } := by
  simp [of]

/-! ## Answers -/

namespace Service

/-- A table is given out or built by `getOrCreate` as the map does it. -/
theorem answer_getOrCreate (key : String) (factory : Factory) (host : Host) :
    (Request.getOrCreate key factory).answerOfMap (.of host) =
      (((Request.getOrCreate key factory).answer host).1,
        .of ((Request.getOrCreate key factory).answer host).2) := by
  have hlookup : (TableMap.of host).stored.lookup key = host.tables.get? key := by
    simp [TableMap.of]
  rw [Request.answer, Request.answerOfMap, hlookup]
  cases hkept : host.tables.get? key with
  | some shared => rw [Action.runFrom_getOrCreate_of_kept hkept]
  | none =>
    -- reserving the key leaves the surroundings alone, so both factories start from the same ones
    have hstart : Surroundings.of { host with tables := host.tables.reserve key } =
      (TableMap.of host).surroundings := Surroundings.of_tables host _
    rw [Action.runFrom_getOrCreate_of_none hkept, Factory.onHost, Step.runFrom_onPart, hstart]
    rcases factory.runFrom (TableMap.of host).surroundings with ⟨outcome, w⟩
    cases outcome with
    | ok table => simp [TableMap.of, stored_store]
    | error failure => simp [TableMap.of]

/-- A service gives a request the `answer` that its map gives, and stands for the map that is
left. -/
theorem answer_eq (request : Request) (host : Host) :
    request.answerOfMap (.of host) = ((request.answer host).1, .of (request.answer host).2) := by
  cases request with
  | getOrCreate key factory => exact answer_getOrCreate key factory host
  | get key => simp [Request.answer, Request.answerOfMap, TableMap.of]
  | size => simp [Request.answer, Request.answerOfMap, TableMap.of, card_keys_stored]
  | isEmpty =>
    have hempty : host.tables.isEmpty = decide ((TableMap.of host).stored.keys = ∅) :=
      Bool.eq_iff_iff.2 (host.tables.isEmpty_iff.trans decide_eq_true_iff.symm)
    rw [Request.answer, Request.answerOfMap, hempty]
  | clear => rfl

/-- `answerAll` gives any requests the same answers, one after the other. -/
theorem answerAll_eq (requests : List Request) (host : Host) :
    answerAll Request.answerOfMap requests (.of host) =
      ((answerAll Request.answer requests host).1,
        .of (answerAll Request.answer requests host).2) := by
  induction requests generalizing host with
  | nil => rfl
  | cons request rest ih =>
    -- after the first answer the map is that of the service again
    rw [answerAll, answer_eq]
    dsimp only
    rw [ih]
    rfl

/-- A service refines a plain `TableMap` from keys to tables: `answerAll` gives the same answers to
any requests, one after the other, and the service stands for the map that is left. A key that is
only reserved makes no difference to any answer. -/
theorem answerAll_refines_map (requests : List Request) (host : Host) :
    answerAll Request.answerOfMap requests (.of host) =
      ((answerAll Request.answer requests host).1,
        .of (answerAll Request.answer requests host).2) ∧
    ∀ key, (answerAll Request.answer requests
      { host with tables := host.tables.reserve key }).1 =
        (answerAll Request.answer requests host).1 := by
  refine ⟨answerAll_eq requests host, fun key => ?_⟩
  -- with the key reserved, the service stands for the same map
  have hsame : TableMap.of { host with tables := host.tables.reserve key } = TableMap.of host := by
    simp [TableMap.of]
  have hreserved := answerAll_eq requests { host with tables := host.tables.reserve key }
  rw [hsame, answerAll_eq requests host] at hreserved
  exact (Prod.mk.inj hreserved).1.symm

/-- A service in which a key is reserved after a failure still counts as empty. -/
example (w : Surroundings) (cause : Cause) :
    (answerAll Request.answer [.getOrCreate "a" (fail cause), .size, .isEmpty, .get "a"]
      (w.withTables {})).1 =
      [.created (.error (.within (.buildTable "a") (.ofCause cause))), .size 0, .isEmpty true,
        .found none] := by
  rfl

end Service

end MappingTables
