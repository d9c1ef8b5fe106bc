/-!
# Digits and blanks

What readers of every format take off a text: digits, each with its value, and blanks, which are
passed over. Which characters are blank is the format's choice.
-/

namespace MetricCatalog.Text

/-- The value of a decimal digit. -/
def decimalValue? (c : Char) : Option Nat :=
  if '0' ≤ c ∧ c ≤ '9' then some (c.toNat - '0'.toNat) else none

/-- The value of a hexadecimal digit, in either case. -/
def hexValue? (c : Char) : Option Nat :=
  if '0' ≤ c ∧ c ≤ '9' then some (c.toNat - '0'.toNat)
  else if 'a' ≤ c ∧ c ≤ 'f' then some (c.toNat - 'a'.toNat + 10)
  else if 'A' ≤ c ∧ c ≤ 'F' then some (c.toNat - 'A'.toNat + 10)
  else none

/-- The value of a character that is known to be a digit. -/
def digitValue (c : Char) : Nat := (hexValue? c).getD 0

/-- The number that digits spell in a base. -/
def digitsValue (base : Nat) (digits : List Char) : Nat :=
  digits.foldl (fun value d => value * base + digitValue d) 0

/-- Passes over the characters at the front that are among the blank ones. -/
def skipBlanks (blank s : List Char) : List Char := s.dropWhile blank.contains

theorem length_skipBlanks_le (blank s : List Char) : (skipBlanks blank s).length ≤ s.length :=
  (List.dropWhile_sublist _).length_le

theorem length_lt_of_skipBlanks {blank s rest : List Char} {c : Char}
    (h : skipBlanks blank s = c :: rest) : rest.length < s.length := by
  have := length_skipBlanks_le blank s
  rw [h] at this
  exact this

end MetricCatalog.Text
