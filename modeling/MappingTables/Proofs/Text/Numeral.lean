import MappingTables.Proofs.Text.Lines
import MappingTables.Text.Numeral

/-!
# Reading numerals back

* `readNumeral_toString`: a number is read from its decimal numeral, if it is in range.
* `avoids_toString`: a numeral consists of digits.
-/

namespace MappingTables.Text

/-- Further `digits` make a number no smaller. -/
theorem le_ofDigitChars (digits : List Char) (value : Nat) :
    value ≤ Nat.ofDigitChars 10 digits value := by
  induction digits generalizing value with
  | nil => exact Nat.le_refl value
  | cons c digits ih =>
    rw [Nat.ofDigitChars_cons]
    have := ih (10 * value + (c.toNat - '0'.toNat))
    omega

/-- `readDigits` reads digits as the number that they stand for, if it is in range. -/
theorem readDigits_eq_ok {limit value : Nat} {digits : List Char}
    (hdigits : ∀ c ∈ digits, c.isDigit = true) (hlimit : Nat.ofDigitChars 10 digits value < limit) :
    readDigits limit value digits = .ok (Nat.ofDigitChars 10 digits value) := by
  induction digits generalizing value with
  | nil => rfl
  | cons c digits ih =>
    rw [Nat.ofDigitChars_cons] at hlimit ⊢
    -- the digits read so far stand for no more than all of them, so the limit is not reached before
    have hstep := Nat.lt_of_le_of_lt (le_ofDigitChars digits _) hlimit
    rw [readDigits, if_pos (hdigits c List.mem_cons_self)]
    dsimp only
    rw [if_pos hstep]
    exact ih (fun c' hc' => hdigits c' (List.mem_cons_of_mem c hc')) hlimit

/-- A numeral that `toString` writes consists of digits. -/
theorem isDigit_of_mem_toString {n : Nat} {c : Char} (h : c ∈ (toString n).toList) :
    c.isDigit = true := by
  rw [Nat.toString_eq_repr, Nat.toList_repr] at h
  exact Nat.isDigit_of_mem_toDigits (by decide) (by decide) h

/-- A numeral that `toString` writes avoids all but digits. -/
theorem avoids_toString {chars : List Char} (h : chars.all (!·.isDigit)) (n : Nat) :
    Avoids chars (toString n) := by
  intro c hc hmem
  have hdigit := List.all_eq_true.1 h c hc
  rw [isDigit_of_mem_toString hmem] at hdigit
  cases hdigit

/-- `readNumeral` reads a number in range from its decimal numeral. -/
theorem readNumeral_toString {limit n : Nat} (h : n < limit) :
    readNumeral limit (toString n) = .ok n := by
  have hdigits : (toString n).toList = Nat.toDigits 10 n := by
    rw [Nat.toString_eq_repr, Nat.toList_repr]
  have hread : readDigits limit 0 (Nat.toDigits 10 n) = .ok n := by
    rw [readDigits_eq_ok]
    · rw [Nat.ofDigitChars_ten_toDigits]
    · exact fun c hc => Nat.isDigit_of_mem_toDigits (by decide) (by decide) hc
    · rwa [Nat.ofDigitChars_ten_toDigits]
  -- a numeral does not start with a sign
  have hsign : ∀ rest, Nat.toDigits 10 n ≠ '+' :: rest := by
    intro rest hrest
    have hplus : '+' ∈ Nat.toDigits 10 n := hrest ▸ List.mem_cons_self
    exact absurd (Nat.isDigit_of_mem_toDigits (by decide) (by decide) hplus) (by decide)
  unfold readNumeral
  rw [hdigits]
  split
  · next h => exact absurd h Nat.toDigits_ne_nil
  · next h => exact absurd h (hsign [])
  · next h => exact absurd h (hsign _)
  · exact hread

end MappingTables.Text
