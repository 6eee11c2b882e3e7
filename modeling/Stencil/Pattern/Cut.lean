import Stencil.Pattern.Shape

/-!
What it means that an input matches: it can be cut, from its first character
to its last, into one stretch for each piece of the pattern. Of all cuts the
preferred one makes the first capture as long as possible, then the second,
and so on.
-/
namespace Stencil

/-- The input is cut along the pattern, and these are the captured texts. -/
inductive Cut : Pattern → Text → List Text → Prop
  | done : Cut [] [] []
  | literal {rest : Pattern} {following : Text} {captured : List Text} (content : Text)
      (tail : Cut rest following captured) :
      Cut (.literal content :: rest) (content ++ following) captured
  | capture {rest : Pattern} {following : Text} {captured : List Text} {shape : Shape}
      {taken : Text} (fits : shape.Fits taken) (tail : Cut rest following captured) :
      Cut (.capture shape :: rest) (taken ++ following) (taken :: captured)

/-- The first lengths are not the longer ones, where the first difference counts. -/
def NoLonger : List Nat → List Nat → Prop
  | [], _ => True
  | _ :: _, [] => False
  | first :: rest, other :: others => first < other ∨ (first = other ∧ NoLonger rest others)

def PreferredCut (pattern : Pattern) (input : Text) (captured : List Text) : Prop :=
  Cut pattern input captured ∧
    ∀ other, Cut pattern input other →
      NoLonger (other.map List.length) (captured.map List.length)

end Stencil
