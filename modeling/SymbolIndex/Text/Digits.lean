/-!
# Digits

The values of digits and of lists of digits in a base up to sixteen.
-/

namespace SymbolIndex

namespace Text

def hexDigit? (c : Char) : Option Nat :=
  let n := c.toNat
  if 48 ≤ n && n ≤ 57 then some (n - 48)
  else if 97 ≤ n && n ≤ 102 then some (n - 87)
  else if 65 ≤ n && n ≤ 70 then some (n - 55)
  else none

def isDigitIn (base : Nat) (c : Char) : Bool :=
  match hexDigit? c with
  | some value => value < base
  | none => false

/-- The number that digits stand for in a base.  Other characters are passed
over. -/
def natOfDigits (base : Nat) (digits : List Char) : Nat :=
  (digits.filterMap hexDigit?).foldl (fun number digit => number * base + digit) 0

end Text

end SymbolIndex
