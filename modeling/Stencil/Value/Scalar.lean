import Stencil.Number.Layout
import Stencil.Number.Literal

/-!
A captured text gets the type that its spelling shows. An integer is written
canonically and fits 64 bits. Other runs of digits keep their spelling as text,
because a leading zero or a length beyond 64 bits means something. Any other
decimal literal is a floating-point number, unless it is too great for one.
-/
namespace Stencil

inductive Scalar where
  | text (content : Text)
  | integer (number : Int64)
  | float (number : Binary64)
  deriving DecidableEq, Repr

def Digits.canonicalInt? (content : Text) : Option Int :=
  let (negative, digits) := match content with
    | '-' :: rest => (true, rest)
    | _ => (false, content)
  if Digits.isDigits digits then
    let magnitude : Int := Digits.value digits
    let number := if negative then -magnitude else magnitude
    if Digits.writtenInt number = content then some number else none
  else none

namespace Scalar

def integer? (content : Text) : Option Int64 :=
  match Digits.canonicalInt? content with
  | some number =>
      if Int64.minValue.toInt ≤ number ∧ number ≤ Int64.maxValue.toInt then
        some (Int64.ofInt number)
      else none
  | none => none

def float? (content : Text) : Option Binary64 :=
  match DecimalLiteral.ofText? content with
  | some literal => if literal.value.isFinite then some literal.value else none
  | none => none

def ofText (content : Text) : Scalar :=
  match integer? content with
  | some number => .integer number
  | none =>
      if Digits.isDigits content then .text content
      else match float? content with
        | some number => .float number
        | none => .text content

/-- Floating-point numbers are shown with the fewest digits, never with an
exponent, and a tie between two shortest goes up. -/
def floatLayout : FloatLayout := ⟨.up, none, false⟩

def written : Scalar → Text
  | .text content => content
  | .integer number => Digits.writtenInt number.toInt
  | .float number => floatLayout.written number

end Scalar
end Stencil
