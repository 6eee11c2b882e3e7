import Stencil.Number.Power

/-!
Binary floating-point numbers of 64 bits: a sign, an exponent field of 11 bits
and a fraction of 52 bits. A finite number is a whole significand times a power
of two. Rounding works on exact fractions of naturals and goes to the nearest
number, from halfway to the one with an even significand.
-/
namespace Stencil

structure Binary64 where
  bits : UInt64
  deriving DecidableEq, Repr

namespace Binary64

/-- The magnitude bits of infinity. Greater ones are no numbers. -/
def infinityBits : Nat := 2047 * twoTo 52

def negative (x : Binary64) : Bool := twoTo 63 ≤ x.bits.toNat

-- The bits without the sign; on numbers they are ordered as the magnitudes.
def magnitudeBits (x : Binary64) : Nat := x.bits.toNat % twoTo 63

def isFinite (x : Binary64) : Bool := x.magnitudeBits < infinityBits

def isNaN (x : Binary64) : Bool := infinityBits < x.magnitudeBits

def exponentField (x : Binary64) : Nat := x.magnitudeBits / twoTo 52

def significand (x : Binary64) : Nat :=
  let fraction := x.magnitudeBits % twoTo 52
  if x.exponentField = 0 then fraction else twoTo 52 + fraction

def exponent (x : Binary64) : Int := (max x.exponentField 1 : Nat) - 1075

def ofMagnitude (negative : Bool) (magnitude : Nat) : Binary64 :=
  ⟨UInt64.ofNat (if negative then twoTo 63 + magnitude else magnitude)⟩

/-- The nearest natural to a quotient, from halfway the even one. -/
def nearestQuotient (numerator denominator : Nat) : Nat :=
  let quotient := numerator / denominator
  let twice := 2 * (numerator % denominator)
  if denominator < twice ∨ (twice = denominator ∧ quotient % 2 = 1) then quotient + 1
  else quotient

/-- The greatest power of two that is not above a positive quotient. -/
def floorLog (numerator denominator : Nat) : Int :=
  let guess : Int := numerator.log2 - denominator.log2
  if denominator * twoTo guess.toNat ≤ numerator * twoTo (-guess).toNat then guess else guess - 1

/-- The magnitude bits of the number nearest to a quotient. The significand is
added to the shifted exponent, so one that rounds up to the next power of two
carries into the exponent by itself. -/
def nearestMagnitude (numerator denominator : Nat) : Nat :=
  if numerator = 0 then 0
  else
    let scale := max (floorLog numerator denominator - 52) (-1074)
    let significand :=
      nearestQuotient (numerator * twoTo (-scale).toNat) (denominator * twoTo scale.toNat)
    min ((scale + 1074).toNat * twoTo 52 + significand) infinityBits

/-- The number nearest to `digits * 10 ^ exponent`. Far out of range the answer
is known without the power: ten is above eight, so the value is below
`2 ^ (log2 digits + 1 + 3 * exponent)` for a negative exponent. -/
def ofDecimal (negative : Bool) (digits : Nat) (exponent : Int) : Binary64 :=
  ofMagnitude negative <|
    if digits = 0 ∨ digits.log2 + 1 + 3 * exponent < -1080 ∧ exponent < 0 then 0
    else if 400 < exponent then infinityBits
    else nearestMagnitude (digits * tenTo exponent.toNat) (tenTo (-exponent).toNat)

end Binary64
end Stencil
