/-!
# Digits

What digits are worth, alone and in a row, in base ten and in base sixteen.
-/

namespace ProvideIndex.Text

def digitValue (c : Char) : Nat := c.toNat - '0'.toNat

/-- The number that decimal digits stand for. -/
def natural (digits : List Char) : Nat := digits.foldl (fun n c => 10 * n + digitValue c) 0

def hexValue? (c : Char) : Option Nat :=
  if c.isDigit then some (digitValue c)
  else if 'a' ≤ c ∧ c ≤ 'f' then some (c.toNat - 'a'.toNat + 10)
  else if 'A' ≤ c ∧ c ≤ 'F' then some (c.toNat - 'A'.toNat + 10)
  else none

/-- The number that digits of a base stand for. -/
def number? (base : Nat) (digits : List Char) : Option Nat :=
  digits.foldl (fun n c => do
    let digit ← hexValue? c
    if digit < base then return base * (← n) + digit else none) (some 0)

end ProvideIndex.Text
