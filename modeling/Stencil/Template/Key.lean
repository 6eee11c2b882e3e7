import Stencil.Text.Digits

/-!
One segment of a dotted key. A segment that is the canonical decimal form of
a 64-bit number is an index; every other text is a name. Indexes come before
names, by number; names follow by code point.
-/
namespace Stencil

inductive Key where
  | index (number : UInt64)
  | name (content : Text)
  deriving DecidableEq, Repr

namespace Key

def ofText (segment : Text) : Key :=
  if Digits.isDigits segment then
    let number := Digits.value segment
    if number < UInt64.size ∧ Digits.written number = segment then .index (UInt64.ofNat number)
    else .name segment
  else .name segment

def written : Key → Text
  | .index number => Digits.written number.toNat
  | .name content => content

def Before : Key → Key → Prop
  | .index a, .index b => a.toNat < b.toNat
  | .index _, .name _ => True
  | .name _, .index _ => False
  | .name a, .name b => a < b

instance : LT Key := ⟨Before⟩

instance (a b : Key) : Decidable (a < b) :=
  match a, b with
  | .index a, .index b => inferInstanceAs (Decidable (a.toNat < b.toNat))
  | .index _, .name _ => inferInstanceAs (Decidable True)
  | .name _, .index _ => inferInstanceAs (Decidable False)
  | .name a, .name b => inferInstanceAs (Decidable (a < b))

-- The keys in their order; equal keys all stay.
def sorted (keys : List Key) : List Key := keys.mergeSort fun a b => !decide (b < a)

end Key
end Stencil
