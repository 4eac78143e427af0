/-!
# The nearest binary64 number

A decimal number is turned into the bits of the binary64 number nearest to it; of
two equally near ones the one with an even last bit is taken.  All arithmetic is
exact, on natural numbers.
-/

namespace Overlay.Binary64

/-- The bit that tells negative numbers. -/
def signBit : UInt64 := 0x8000000000000000

/-- The bits of positive infinity. -/
def infinity : UInt64 := 0x7ff0000000000000

/-- The bits of a quiet number that is none. -/
def notANumber : UInt64 := 0x7ff8000000000000

/-- Whether the bits are those of a finite number. -/
def isFinite (bits : UInt64) : Bool := bits &&& infinity != infinity

/-- The bits of the negated number. -/
def negate (bits : UInt64) : UInt64 := bits ^^^ signBit

/-- A quotient rounded to the nearest whole number, an exact half to the even one. -/
def roundDiv (numerator denominator : Nat) : Nat :=
  let quotient := numerator / denominator
  let remainder := numerator % denominator
  if 2 * remainder < denominator then quotient
  else if denominator < 2 * remainder then quotient + 1
  else quotient + quotient % 2

/-- The ratio times a power of two. -/
def scaled (numerator denominator : Nat) (shift : Int) : Nat × Nat :=
  if 0 ≤ shift then (numerator <<< shift.toNat, denominator)
  else (numerator, denominator <<< (-shift).toNat)

/-- How far a ratio has to be shifted for its whole part to have 53 binary digits,
or as far as the smallest numbers reach. -/
def shiftFor (numerator denominator : Nat) : Int :=
  let guess : Int := 53 - (numerator.log2 : Int) + (denominator.log2 : Int)
  let (top, bottom) := scaled numerator denominator guess
  let shift := if top / bottom < 0x20000000000000 then guess else guess - 1
  min shift 1074

/-- The bits of the number nearest to a ratio.  The digits count on from the bits
of the exponent, so that a carry out of them is right by itself. -/
def ofRatio (numerator denominator : Nat) : UInt64 :=
  if numerator = 0 then 0
  else
    let shift := shiftFor numerator denominator
    let (top, bottom) := scaled numerator denominator shift
    let bits := ((1074 - shift) * 0x10000000000000 + (roundDiv top bottom : Int)).toNat
    if infinity.toNat ≤ bits then infinity else UInt64.ofNat bits

/-- The bits of the number nearest to `digits` times ten to the power `exponent`.
Exponents beyond the range of binary64 are settled without arithmetic. -/
def ofDecimal (digits : Nat) (exponent : Int) : UInt64 :=
  let magnitude := exponent + (Nat.toDigits 10 digits).length
  if digits = 0 then 0
  else if 310 < magnitude then infinity
  else if magnitude < -330 then 0
  else if 0 ≤ exponent then ofRatio (digits * Nat.pow 10 exponent.toNat) 1
  else ofRatio digits (Nat.pow 10 (-exponent).toNat)

end Overlay.Binary64
