import MappingTables.Proofs.OrderedMap
import MappingTables.Service

/-!
# The tables of a build

* `Service.get?_reserve`, `Service.get?_store_self`, `Service.get?_store_of_ne`: what is under a key
  after it, or another one, is reserved or gets a table.
* `Service.Numbered`: each table has a number of its own.
-/

namespace MappingTables

namespace Service

@[simp]
theorem get?_empty (key : String) : ({} : Service).get? key = none :=
  rfl

/-- `reserve` of a key makes no table. -/
theorem get?_reserve (s : Service) (key other : String) :
    (s.reserve key).get? other = s.get? other := by
  rw [get?, get?, reserve, OrderedMap.get?_upsert]
  by_cases h : other = key
  · rw [if_pos h, h]
    rfl
  · rw [if_neg h]

/-- `store` puts a table under its own key only. -/
theorem get?_store_of_ne {s : Service} {key other : String} {table : Table} (h : other ≠ key) :
    (s.store key table).2.get? other = s.get? other := by
  rw [get?, get?, store]
  dsimp only
  rw [OrderedMap.get?_insert, if_neg h]

theorem get?_store_self (s : Service) (key : String) (table : Table) :
    (s.store key table).2.get? key = some (s.store key table).1 := by
  rw [get?, store]
  dsimp only
  rw [OrderedMap.get?_insert, if_pos rfl]
  rfl

/-! ## Numbers -/

/-- Whether each table of a `Service` has a number of its own. -/
structure Numbered (s : Service) : Prop where
  serial_lt : ∀ key shared, s.get? key = some shared → shared.serial < s.built
  serial_inj : ∀ key key' shared shared', s.get? key = some shared → s.get? key' = some shared' →
    shared.serial = shared'.serial → key = key'

theorem numbered_of_none {s : Service} (h : ∀ key, s.get? key = none) : s.Numbered where
  serial_lt key shared hkey := by rw [h] at hkey; cases hkey
  serial_inj key key' shared shared' hkey := by rw [h] at hkey; cases hkey

theorem Numbered.reserve {s : Service} (h : s.Numbered) (key : String) :
    (s.reserve key).Numbered where
  serial_lt other shared hother := h.serial_lt other shared (by rwa [get?_reserve] at hother)
  serial_inj other other' shared shared' hother hother' := by
    rw [get?_reserve] at hother hother'
    exact h.serial_inj other other' shared shared' hother hother'

theorem Numbered.store {s : Service} (h : s.Numbered) (key : String) (table : Table) :
    (s.store key table).2.Numbered := by
  -- the new table has the number that no older one has got to
  have hcases : ∀ other shared, (s.store key table).2.get? other = some shared →
      other = key ∧ shared.serial = s.built ∨ other ≠ key ∧ s.get? other = some shared := by
    intro other shared hother
    by_cases heq : other = key
    · subst heq
      rw [get?_store_self] at hother
      cases hother
      exact .inl ⟨rfl, rfl⟩
    · rw [get?_store_of_ne heq] at hother
      exact .inr ⟨heq, hother⟩
  constructor
  · intro other shared hother
    change shared.serial < s.built + 1
    obtain ⟨-, hserial⟩ | ⟨-, hold⟩ := hcases other shared hother
    · omega
    · exact Nat.lt_succ_of_lt (h.serial_lt other shared hold)
  · intro other other' shared shared' hother hother' hserial
    obtain ⟨rfl, hnew⟩ | ⟨-, hold⟩ := hcases other shared hother
    · obtain ⟨rfl, -⟩ | ⟨-, hold'⟩ := hcases other' shared' hother'
      · rfl
      · have hlt := h.serial_lt other' shared' hold'
        omega
    · obtain ⟨rfl, hnew'⟩ | ⟨-, hold'⟩ := hcases other' shared' hother'
      · have hlt := h.serial_lt other shared hold
        omega
      · exact h.serial_inj other other' shared shared' hold hold' hserial

end Service

end MappingTables
