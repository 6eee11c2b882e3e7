import Stencil.Template.Fault
import Stencil.Text.Blank
import Stencil.Text.Digits

/-!
A specifier says what a tag takes: text, digits, or a decimal with digits on
both sides of a point, each with an exact or an open count. Counts are 64-bit
numbers, and an exact count is not zero.
-/
namespace Stencil

inductive Count where
  | atLeast (number : UInt64)
  | exactly (number : UInt64) (positive : number ≠ 0)
  deriving DecidableEq, Repr

namespace Count

def any : Count := .atLeast 0

def oneOrMore : Count := .atLeast 1

def written : Count → Text
  | .exactly number _ => Digits.written number.toNat
  | .atLeast _ => []

def Allows (count : Count) (length : Nat) : Prop :=
  match count with
  | .atLeast number => number.toNat ≤ length
  | .exactly number _ => length = number.toNat

instance (count : Count) (length : Nat) : Decidable (count.Allows length) :=
  match count with
  | .atLeast number => inferInstanceAs (Decidable (number.toNat ≤ length))
  | .exactly number _ => inferInstanceAs (Decidable (length = number.toNat))

end Count

inductive Kind where
  | text
  | digits
  | decimal
  deriving DecidableEq, Repr

def Kind.letter : Kind → Char
  | .text => 's'
  | .digits => 'd'
  | .decimal => 'f'

inductive Extent where
  | chars (count : Count)
  | point (before after : Count)
  deriving DecidableEq, Repr

structure Specifier where
  kind : Kind
  extent : Extent
  deriving DecidableEq, Repr

namespace Specifier

def text (count : Count) : Specifier := ⟨.text, .chars count⟩

def digits (count : Count) : Specifier := ⟨.digits, .chars count⟩

def decimal (before after : Count) : Specifier := ⟨.decimal, .point before after⟩

/-- The canonical text. A point is written unless one digit or more follow it
and the digits before it are not optional. -/
def written (specifier : Specifier) : Text :=
  match specifier.extent with
  | .chars count => count.written ++ [specifier.kind.letter]
  | .point before after =>
      if after = .oneOrMore ∧ before ≠ .any then before.written ++ ['f']
      else before.written ++ '.' :: after.written ++ ['f']

-- A number that may be left out. It must be digits only and fit 64 bits.
def number? (content specifier : Text) : Except TemplateFault (Option UInt64) :=
  if content = [] then .ok none
  else if Digits.isDigits content ∧ Digits.value content < UInt64.size then
    .ok (some (UInt64.ofNat (Digits.value content)))
  else .error (.invalidLength specifier)

def countOr (absent : Count) (number : Option UInt64) (specifier : Text) :
    Except TemplateFault Count :=
  match number with
  | none => .ok absent
  | some number =>
      if positive : number ≠ 0 then .ok (.exactly number positive)
      else .error (.zeroLength specifier)

def charCount (content specifier : Text) : Except TemplateFault Count := do
  countOr .oneOrMore (← number? content specifier) specifier

/-- The digits around the point. A side that is left out beside a written
point may be empty; without a point both sides hold a digit or more. -/
def pointCounts (content specifier : Text) : Except TemplateFault (Count × Count) :=
  match content.splitOn '.' with
  | [before] => do
      return (← charCount before specifier, .oneOrMore)
  | [before, after] => do
      let before ← number? before specifier
      let after ← number? after specifier
      if before = none ∧ after = none then .error (.noDigits specifier)
      else
        return (← countOr .any before specifier, ← countOr .any after specifier)
  | _ => .error (.invalidLength specifier)

/-- Reads the specifier of the tag with the given key. The last character says
the kind; a bare number is the exact length of a text. -/
def ofText (raw key : Text) : Except TemplateFault Specifier :=
  let specifier := Text.trim raw
  match specifier.getLast? with
  | none => .error (.emptySpecifier key)
  | some 's' => do return text (← charCount specifier.dropLast specifier)
  | some 'd' => do return digits (← charCount specifier.dropLast specifier)
  | some 'f' => do
      let (before, after) ← pointCounts specifier.dropLast specifier
      return decimal before after
  | some _ => do return text (← charCount specifier specifier)

end Specifier
end Stencil
