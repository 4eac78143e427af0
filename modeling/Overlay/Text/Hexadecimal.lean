/-!
# Hexadecimal digits

Identifiers, escapes and numbers spell values in base 16.  Letters of both cases
are read, lower-case letters are written.
-/

namespace Overlay.Text

/-- The value of one hexadecimal digit, in either case. -/
def hexValue? (digit : Char) : Option Nat :=
  if '0' ≤ digit ∧ digit ≤ '9' then some (digit.toNat - '0'.toNat)
  else if 'a' ≤ digit ∧ digit ≤ 'f' then some (digit.toNat - 'a'.toNat + 10)
  else if 'A' ≤ digit ∧ digit ≤ 'F' then some (digit.toNat - 'A'.toNat + 10)
  else none

/-- The number with the given digits in a base, the most significant digit first. -/
def ofDigits (base : Nat) (digits : List Nat) : Nat :=
  digits.foldl (fun total digit => base * total + digit) 0

/-- The number that hexadecimal digits spell. -/
def ofHexadecimal? (digits : List Char) : Option Nat :=
  (digits.mapM hexValue?).map (ofDigits 16)

/-- The digits of a number in base 16, without leading zeros. -/
def hexadecimal (value : Nat) : String := String.ofList (Nat.toDigits 16 value)

/-- The last `width` digits of a number in base 16. -/
def hexadecimalDigits (width value : Nat) : List Char :=
  (List.range width).map fun place =>
    Nat.digitChar (value / Nat.pow 16 (width - 1 - place) % 16)

end Overlay.Text
