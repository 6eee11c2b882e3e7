import Stencil.Pattern.Written

/-!
Regular expressions, as far as patterns are written in them: sets of characters
that repeat, and groups of these. The text of an expression is read by the rules
of the notation, not by looking back at the pattern that it came from. An
expression matches greedily: of all ways to match, the one counts that a
backtracking matcher would come to first.
-/
namespace Stencil

/-- The characters within the ranges or, if the set is negated, all others. -/
structure CharSet where
  negated : Bool
  ranges : List (Char × Char)
  deriving DecidableEq, Repr

def CharSet.holds (set : CharSet) (c : Char) : Bool :=
  set.negated != set.ranges.any fun range => range.1 ≤ c && c ≤ range.2

/-- A set that repeats `least` times, or any number of times from there on. -/
structure Repeat where
  set : CharSet
  least : Nat
  more : Bool
  deriving DecidableEq, Repr

inductive Item where
  | bare (content : Repeat)
  | group (content : List Repeat)
  deriving DecidableEq, Repr

abbrev Expression := List Item

inductive Glyph where
  | bare (c : Char)
  | quoted (c : Char)
  deriving DecidableEq, Repr

namespace Glyph

def ofText : Text → List Glyph
  | '\\' :: c :: rest => quoted c :: ofText rest
  | c :: rest => bare c :: ofText rest
  | [] => []

/-- The character that a glyph stands for, if it stands for itself. Letters
behind a backslash mean other things. -/
def literal? (operators : List Char) : Glyph → Option Char
  | bare c => if operators.contains c then none else some c
  | quoted c => if isMeta c then some c else none

end Glyph

namespace Expression

def setOperators : List Char := ['\\', '[', ']', '&', '-', '~']

def operators : List Char := ['\\', '.', '+', '*', '?', '(', ')', '|', '[', '{', '^', '$']

def readRanges : List Glyph → Option (List (Char × Char) × List Glyph)
  | [] => none
  | .bare ']' :: rest => some ([], rest)
  | low :: .bare '-' :: high :: rest => do
      let low ← low.literal? setOperators
      let high ← high.literal? setOperators
      let (more, following) ← readRanges rest
      return ((low, high) :: more, following)
  | single :: rest => do
      let single ← single.literal? setOperators
      let (more, following) ← readRanges rest
      return ((single, single) :: more, following)

def readSet : List Glyph → Option (CharSet × List Glyph)
  | .bare '[' :: .bare '^' :: rest =>
      (readRanges rest).map fun read => (⟨true, read.1⟩, read.2)
  | .bare '[' :: rest => (readRanges rest).map fun read => (⟨false, read.1⟩, read.2)
  | single :: rest => (single.literal? operators).map fun c => (⟨false, [(c, c)]⟩, rest)
  | [] => none

/-- A count up to the closing brace; a comma leaves it open above. `digits` are
those read so far. -/
def readCount (digits : Text) : List Glyph → Option ((Nat × Bool) × List Glyph)
  | .bare '}' :: rest =>
      if digits = [] then none else some ((Digits.value digits, false), rest)
  | .bare ',' :: .bare '}' :: rest =>
      if digits = [] then none else some ((Digits.value digits, true), rest)
  | .bare c :: rest => if c.isDigit then readCount (digits ++ [c]) rest else none
  | _ => none

def readQuantifier : List Glyph → Option ((Nat × Bool) × List Glyph)
  | .bare '*' :: rest => some ((0, true), rest)
  | .bare '+' :: rest => some ((1, true), rest)
  | .bare '{' :: rest => readCount [] rest
  | rest => some ((1, false), rest)

def readRepeat (glyphs : List Glyph) : Option (Repeat × List Glyph) := do
  let (set, following) ← readSet glyphs
  let (times, following) ← readQuantifier following
  return (⟨set, times.1, times.2⟩, following)

theorem length_of_readRanges {glyphs following : List Glyph} {ranges : List (Char × Char)}
    (read : readRanges glyphs = some (ranges, following)) :
    following.length < glyphs.length := by
  fun_induction readRanges glyphs generalizing ranges with
  | case1 => simp at read
  | case2 rest =>
      obtain ⟨rfl, rfl⟩ := by simpa using read
      simp
  | case3 low high rest _ ih =>
      simp only [bind, Option.bind_eq_some_iff, pure] at read
      rcases read with ⟨_, _, _, _, ⟨more, final⟩, tail, same⟩
      obtain ⟨rfl, rfl⟩ := by simpa using same
      have shorter := ih tail
      simp only [List.length_cons]
      omega
  | case4 single rest _ _ ih =>
      simp only [bind, Option.bind_eq_some_iff, pure] at read
      rcases read with ⟨_, _, ⟨more, final⟩, tail, same⟩
      obtain ⟨rfl, rfl⟩ := by simpa using same
      have shorter := ih tail
      simp only [List.length_cons]
      omega

theorem length_of_readCount {digits : Text} {glyphs following : List Glyph} {times : Nat × Bool}
    (read : readCount digits glyphs = some (times, following)) :
    following.length < glyphs.length := by
  fun_induction readCount digits glyphs with
  | case1 => simp at read
  | case2 digits rest =>
      obtain ⟨-, rfl⟩ := by simpa using read
      simp
  | case3 => simp at read
  | case4 digits rest =>
      obtain ⟨-, rfl⟩ := by simpa using read
      simp only [List.length_cons]
      omega
  | case5 digits c rest _ _ digit ih =>
      have shorter := ih read
      simp only [List.length_cons]
      omega
  | case6 => simp at read
  | case7 => simp at read

theorem length_of_readSet {glyphs following : List Glyph} {set : CharSet}
    (read : readSet glyphs = some (set, following)) : following.length < glyphs.length := by
  unfold readSet at read
  split at read
  · rcases Option.map_eq_some_iff.mp read with ⟨⟨ranges, rest⟩, ranged, same⟩
    rcases Prod.mk.inj same with ⟨-, rfl⟩
    have shorter := length_of_readRanges ranged
    simp only [List.length_cons]
    omega
  · rcases Option.map_eq_some_iff.mp read with ⟨⟨ranges, rest⟩, ranged, same⟩
    rcases Prod.mk.inj same with ⟨-, rfl⟩
    have shorter := length_of_readRanges ranged
    simp only [List.length_cons]
    omega
  · rcases Option.map_eq_some_iff.mp read with ⟨c, -, same⟩
    rcases Prod.mk.inj same with ⟨-, rfl⟩
    simp
  · simp at read

theorem length_of_readQuantifier {glyphs following : List Glyph} {times : Nat × Bool}
    (read : readQuantifier glyphs = some (times, following)) :
    following.length ≤ glyphs.length := by
  unfold readQuantifier at read
  split at read
  · obtain ⟨-, rfl⟩ := by simpa using read
    simp
  · obtain ⟨-, rfl⟩ := by simpa using read
    simp
  · have shorter := length_of_readCount read
    simp only [List.length_cons]
    omega
  · obtain ⟨-, rfl⟩ := by simpa using read
    exact Nat.le_refl _

-- Reading makes progress: a repeated set takes a glyph or more.
theorem length_of_readRepeat {glyphs following : List Glyph} {content : Repeat}
    (read : readRepeat glyphs = some (content, following)) :
    following.length < glyphs.length := by
  simp only [readRepeat, bind, Option.bind_eq_some_iff, pure] at read
  rcases read with ⟨⟨set, behindSet⟩, setRead, ⟨times, behindTimes⟩, timesRead, same⟩
  obtain ⟨-, rfl⟩ := by simpa using same
  exact Nat.lt_of_le_of_lt (length_of_readQuantifier timesRead) (length_of_readSet setRead)

/-- The items up to the `$` that ends the expression. `opened` holds what stands
in the open group so far, if one is open. -/
def readItems (opened : Option (List Repeat)) (glyphs : List Glyph) : Option Expression :=
  match opened, glyphs with
  | none, [.bare '$'] => some []
  | none, .bare '(' :: rest => readItems (some []) rest
  | some inner, .bare ')' :: rest => (readItems none rest).map (.group inner :: ·)
  | opened, glyphs =>
      match _read : readRepeat glyphs with
      | none => none
      | some (content, rest) =>
          match opened with
          | none => (readItems none rest).map (.bare content :: ·)
          | some inner => readItems (some (inner ++ [content])) rest
termination_by glyphs.length
decreasing_by
  all_goals first
    | exact length_of_readRepeat _read
    | simp

/-- Reads the text of an expression over a whole input. In single-line mode a
line break is a character like any other, and `^` and `$` are the very ends. -/
def ofText? : Text → Option Expression
  | '(' :: '?' :: 's' :: ')' :: '^' :: rest => readItems none (Glyph.ofText rest)
  | _ => none

end Expression

/-- How a repeated set can match at the start of a text: what it takes and what
it leaves. A greedy matcher tries to take one more before it stops. -/
def CharSet.ways (set : CharSet) (more : Bool) : Nat → Text → List (Text × Text)
  | least + 1, c :: rest =>
      if set.holds c then (set.ways more least rest).map fun way => (c :: way.1, way.2) else []
  | _ + 1, [] => []
  | 0, c :: rest =>
      (if more && set.holds c then
        (set.ways more 0 rest).map fun way => (c :: way.1, way.2)
      else []) ++ [([], c :: rest)]
  | 0, [] => [([], [])]

def Repeat.ways (content : Repeat) : Text → List (Text × Text) :=
  content.set.ways content.more content.least

def sequenceWays : List Repeat → Text → List (Text × Text)
  | [], input => [([], input)]
  | first :: others, input =>
      (first.ways input).flatMap fun way =>
        (sequenceWays others way.2).map fun later => (way.1 ++ later.1, later.2)

namespace Expression

/-- All ways to match at the start of a text, in the order in which backtracking
tries them: the texts that the groups capture, and the text that is left. -/
def ways : Expression → Text → List (List Text × Text)
  | [], input => [([], input)]
  | .bare content :: rest, input =>
      (content.ways input).flatMap fun way => ways rest way.2
  | .group content :: rest, input =>
      (sequenceWays content input).flatMap fun way =>
        (ways rest way.2).map fun later => (way.1 :: later.1, later.2)

def firstMatch? (expression : Expression) (input : Text) : Option (List Text) :=
  (expression.ways input).findSome? fun way => if way.2 = [] then some way.1 else none

end Expression
end Stencil
