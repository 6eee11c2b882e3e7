import Stencil.Number.Binary64
import Stencil.Text.Digits

/-!
Decimal literals: a sign, digits with a point among them or at either end, and
an exponent. Only the digits are required.
-/
namespace Stencil

/-- The literal's digits, without the point, times a power of ten. -/
structure DecimalLiteral where
  negative : Bool
  digits : Nat
  exponent : Int
  deriving DecidableEq, Repr

namespace DecimalLiteral

def splitSign : Text → Bool × Text
  | '-' :: rest => (true, rest)
  | '+' :: rest => (false, rest)
  | content => (false, content)

def splitDigits (content : Text) : Text × Text :=
  (content.takeWhile Char.isDigit, content.dropWhile Char.isDigit)

-- From this size on an exponent takes no further digits.
def exponentLimit : Nat := 65536

/-- The size of an exponent. What is lost beyond the limit shows only in a
literal with tens of thousands of digits; any other is zero or too great anyway. -/
def exponentSize (digits : Text) : Nat :=
  digits.foldl (fun size digit =>
    if size < exponentLimit then 10 * size + (digit.toNat - '0'.toNat) else size) 0

def exponent? : Text → Option Int
  | [] => some 0
  | mark :: rest =>
      let (negative, digits) := splitSign rest
      if (mark = 'e' ∨ mark = 'E') ∧ Digits.isDigits digits then
        some (if negative then -(exponentSize digits : Int) else exponentSize digits)
      else none

def splitFraction : Text → Text × Text
  | '.' :: rest => splitDigits rest
  | content => ([], content)

def ofText? (content : Text) : Option DecimalLiteral :=
  let (negative, unsigned) := splitSign content
  let (whole, afterWhole) := splitDigits unsigned
  let (fraction, afterFraction) := splitFraction afterWhole
  if whole = [] ∧ fraction = [] then none
  else
    (exponent? afterFraction).map fun exponent =>
      ⟨negative, Digits.value (whole ++ fraction), exponent - fraction.length⟩

def value (literal : DecimalLiteral) : Binary64 :=
  .ofDecimal literal.negative literal.digits literal.exponent

end DecimalLiteral
end Stencil
