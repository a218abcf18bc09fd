import StyleVars.Text.Basic

namespace StyleVars.Decimal

def maxIndex : Nat := 0xFFFFFFFFFFFFFFFF

def write (n : Nat) : Text := Nat.toDigits 10 n

def isDigit (c : Char) : Bool := '0' ≤ c && c ≤ '9'

def unsigned : Text → Text
  | '+' :: digits => digits
  | digits => digits

def read? (bound : Nat) (t : Text) : Option Nat :=
  let digits := unsigned t
  if digits ≠ [] ∧ digits.all isDigit then
    let n := Nat.ofDigitChars 10 digits 0
    if n ≤ bound then some n else none
  else none

end StyleVars.Decimal
