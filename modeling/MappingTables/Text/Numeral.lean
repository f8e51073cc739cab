/-!
# Decimal numerals

Unsigned numbers are read from an optional plus sign and decimal digits, at least one. Leading zeros
are fine. The characters are looked at from left to right, so of two faults the first one counts.
-/

namespace MappingTables.Text

/-- Why a numeral cannot be read. -/
inductive NumeralFault where
  /-- There are no characters. -/
  | empty
  /-- A character is no digit, or the sign stands alone. -/
  | invalidDigit
  /-- The number is beyond the range asked for. -/
  | tooLarge
deriving DecidableEq, Repr

/-- The wording of a fault. -/
def NumeralFault.message : NumeralFault → String
  | empty => "cannot parse integer from empty string"
  | invalidDigit => "invalid digit found in string"
  | tooLarge => "number too large to fit in target type"

/-- Reads on with the digits of a number below `limit`, of which `value` was read already. -/
def readDigits (limit : Nat) (value : Nat) : List Char → Except NumeralFault Nat
  | [] => .ok value
  | c :: rest =>
    if c.isDigit then
      let value := 10 * value + (c.toNat - '0'.toNat)
      if value < limit then readDigits limit value rest else .error .tooLarge
    else .error .invalidDigit

/-- Reads a number below `limit`. -/
def readNumeral (limit : Nat) (s : String) : Except NumeralFault Nat :=
  match s.toList with
  | [] => .error .empty
  | ['+'] => .error .invalidDigit
  | '+' :: digits => readDigits limit 0 digits
  | digits => readDigits limit 0 digits

example : readNumeral 256 "+0255" = .ok 255 := rfl

example : readNumeral 256 "256x" = .error .tooLarge := rfl

end MappingTables.Text
