import Stencil.Pattern.Shape

/-!
Finds the preferred cut of an input without trying cuts one by one. For the
pieces from some point on, a row holds one entry for each suffix of the input:
the lengths of the captures in the preferred cut of that suffix, if it has one.
The row of a pattern follows from the row of the pattern without its first
piece in one pass over the input, so the time is the product of the two sizes.
-/
namespace Stencil

def suffixes : Text → List Text
  | [] => [[]]
  | first :: rest => (first :: rest) :: suffixes rest

/-- One entry for each suffix of an input. -/
abbrev Row (Entry : Type) := List (Option Entry)

namespace Row

/-- At each suffix, the entry of the suffix `count` characters further on. -/
def ahead {Entry : Type} (count : Nat) (row : Row Entry) : Row Entry :=
  row.drop count ++ (row.take count).map fun _ => none

end Row

/-- A capture that is being read from its end: how many characters it takes so
far, and the lengths of the captures behind it. -/
structure Reading where
  taken : Nat
  behind : List Nat
  deriving DecidableEq, Repr

def Reading.longer (count : Nat) (reading : Reading) : Reading :=
  { reading with taken := count + reading.taken }

def runLengths (chars : CharClass) (input : Text) : List Nat :=
  input.foldr (fun c later => (if chars.holds c then later.headD 0 + 1 else 0) :: later) [0]

def takeExactly (chars : CharClass) (count : Nat) (input : Text) (row : Row Reading) :
    Row Reading :=
  List.zipWith
    (fun run entry => if count ≤ run then entry.map (Reading.longer count) else none)
    (runLengths chars input) (row.ahead count)

def takeMany (chars : CharClass) (input : Text) (row : Row Reading) : Row Reading :=
  ((suffixes input).zip row).foldr
    (fun here later =>
      let further := match here.1 with
        | c :: _ => if chars.holds c then later.head?.join else none
        | [] => none
      (match further with
        | some reading => some (reading.longer 1)
        | none => here.2) :: later)
    []

def takeRun (chars : CharClass) (count : Count) (input : Text) (row : Row Reading) :
    Row Reading :=
  match count with
  | .exactly number _ => takeExactly chars number.toNat input row
  | .atLeast number => takeExactly chars number.toNat input (takeMany chars input row)

/-- Takes what a capture takes. A decimal's digits stop at its point, so the
longest capture is also the one with the most digits before the point. -/
def Shape.take (shape : Shape) (input : Text) (row : Row Reading) : Row Reading :=
  match shape with
  | .run chars count => takeRun chars count input row
  | .decimal before after =>
      takeRun .digit before input
        (takeExactly (.only '.') 1 input (takeRun .digit after input row))

namespace Pattern

def row (pattern : Pattern) (input : Text) : Row (List Nat) :=
  match pattern with
  | [] => (suffixes input).map fun suffix => if suffix = [] then some [] else none
  | .literal content :: rest =>
      List.zipWith (fun suffix entry => if content.isPrefixOf suffix then entry else none)
        (suffixes input) ((row rest input).ahead content.length)
  | .capture shape :: rest =>
      let opened := (row rest input).map (Option.map (Reading.mk 0))
      (shape.take input opened).map (Option.map fun reading => reading.taken :: reading.behind)

def captured : Pattern → List Nat → Text → List Text
  | .literal content :: rest, lengths, input =>
      captured rest lengths (input.drop content.length)
  | .capture _ :: rest, length :: lengths, input =>
      input.take length :: captured rest lengths (input.drop length)
  | _, _, _ => []

def lengths? (pattern : Pattern) (input : Text) : Option (List Nat) :=
  (pattern.row input).head?.join

def fit? (pattern : Pattern) (input : Text) : Option (List Text) :=
  (pattern.lengths? input).map fun lengths => pattern.captured lengths input

def hasCut (pattern : Pattern) (input : Text) : Bool := (pattern.lengths? input).isSome

end Pattern
end Stencil
