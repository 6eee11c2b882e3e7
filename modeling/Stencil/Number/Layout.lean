import Stencil.Number.Shortest
import Stencil.Text.Digits

/-!
How the digits of a floating-point number are laid out as text. All choices
stand in one record; the layouts themselves belong to the formats that use
them.
-/
namespace Stencil

structure FloatLayout where
  tie : Tie
  /-- The exponents of the leading digit that are written without an exponent
  mark; absent if all are. -/
  positional : Option (Int × Int)
  /-- Whether a whole number in positional form gets a zero after its point. -/
  keepPoint : Bool
  deriving DecidableEq, Repr

namespace FloatLayout

def positionalText (layout : FloatLayout) (digits : Text) (exponent : Int) : Text :=
  if 0 ≤ exponent then
    digits ++ List.replicate exponent.toNat '0' ++ (if layout.keepPoint then ['.', '0'] else [])
  else
    let places := (-exponent).toNat
    let padded := List.replicate (places + 1 - digits.length) '0' ++ digits
    padded.take (padded.length - places) ++ '.' :: padded.drop (padded.length - places)

def scientificText (digits : Text) (leading : Int) : Text :=
  let fraction := digits.drop 1
  digits.take 1 ++ (if fraction = [] then [] else '.' :: fraction) ++
    'e' :: (if 0 ≤ leading then '+' else '-') :: Digits.written leading.natAbs

def stripZeros (digits : Text) : Text × Nat :=
  let zeros := (digits.reverse.takeWhile (· = '0')).length
  (digits.take (digits.length - zeros), zeros)

def decimalText (layout : FloatLayout) (decimal : Decimal) : Text :=
  let (digits, zeros) := stripZeros (Digits.written decimal.digits)
  let exponent := decimal.exponent + zeros
  let leading := exponent + digits.length - 1
  match layout.positional with
  | none => layout.positionalText digits exponent
  | some (low, high) =>
      if low ≤ leading ∧ leading ≤ high then layout.positionalText digits exponent
      else scientificText digits leading

def magnitudeText (layout : FloatLayout) (x : Binary64) : Text :=
  if x.magnitudeBits = 0 then layout.positionalText ['0'] 0
  else if x.isFinite then layout.decimalText (x.shortest layout.tie)
  else "inf".toList

-- The text of a number; what is no number has no sign.
def written (layout : FloatLayout) (x : Binary64) : Text :=
  if x.isNaN then "NaN".toList
  else if x.negative then '-' :: layout.magnitudeText x
  else layout.magnitudeText x

end FloatLayout
end Stencil
