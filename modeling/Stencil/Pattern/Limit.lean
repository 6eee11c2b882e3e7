import Stencil.Pattern.Written

/-!
A pattern may not grow without limit. An exact length has to fit 32 bits, and the matcher has
to stay within a fixed size. What a matcher refuses is its own affair, so reading takes the
refusals as a parameter. `Pattern.refusal?` stands in for a matcher where the program runs: it
is exact about lengths that cannot be named, and estimates the size by the states of an
automaton in which each repetition is a piece of its own.
-/
namespace Stencil

def lengthLimit : Nat := 4294967295

def sizeLimit : Nat := 10485760

-- A pattern that cannot even be read is reported in the matcher's own words.
inductive Refusal where
  | unreadable (report : String)
  | tooBig (limit : Nat)
  deriving DecidableEq, Repr

def Refusal.message : Refusal → String
  | .unreadable report => report
  | .tooBig limit => s!"Compiled regex exceeds size limit of {limit} bytes."

def Count.copies : Count → Nat
  | .exactly number _ => number.toNat
  | .atLeast number => max number.toNat 1

def Shape.copies : Shape → List Nat
  | .run _ count => [count.copies]
  | .decimal before after => [before.copies, after.copies]

def Piece.copies : Piece → List Nat
  | .literal _ => []
  | .capture shape => shape.copies

def Pattern.nameable (pattern : Pattern) : Bool :=
  pattern.all fun piece => piece.copies.all (· ≤ lengthLimit)

section Size

-- A state takes 32 bytes and each way out of it some more. Classes that let in most of Unicode
-- need a state for every kind of byte sequence.
def CharClass.weight : CharClass → Nat
  | .digit => 72
  | .only allowed => 32 * allowed.utf8Size
  | .noBrace | .except _ => 432

-- An open count ends in a fork.
def Count.weight (each : Nat) : Count → Nat
  | .exactly number positive => each * (Count.exactly number positive).copies
  | .atLeast number => each * (Count.atLeast number).copies + 40

def Shape.weight : Shape → Nat
  | .run chars count => count.weight chars.weight
  | .decimal before after =>
      before.weight CharClass.digit.weight + (CharClass.only '.').weight +
        after.weight CharClass.digit.weight

-- A group has a state at either end.
def Piece.weight : Piece → Nat
  | .literal content => 32 * Text.byteSize content
  | .capture shape => 64 + shape.weight

-- The whole match is a group as well, between two anchors, an entry and an exit.
def Pattern.weight (pattern : Pattern) : Nat :=
  pattern.foldr (fun piece total => piece.weight + total) 192

end Size

section Excess

def Count.excessive (count : Count) : Bool := lengthLimit < count.copies

/-- What is written in front of the first length that is too great. -/
def Shape.beforeExcess? : Shape → Option Text
  | .run chars count => if count.excessive then some (chars.written ++ ['{']) else none
  | .decimal before after =>
      let point := CharClass.digit.written ++ before.quantifier ++ (CharClass.only '.').written
      if before.excessive then some (CharClass.digit.written ++ ['{'])
      else if after.excessive then some (point ++ CharClass.digit.written ++ ['{'])
      else none

namespace Pattern

def beforeExcess : Pattern → Text
  | [] => []
  | .literal content :: rest => escaped content ++ beforeExcess rest
  | .capture shape :: rest =>
      match shape.beforeExcess? with
      | some before => '(' :: before
      | none => (Piece.capture shape).written ++ beforeExcess rest

/-- The lines of a report, the one at the row with marks below it. Where there is more than one
line they are numbered. -/
def markedLines (lines : List Text) (row : Nat) (marks : Text) : Text :=
  let width := (Digits.written lines.length).length
  lines.zipIdx.flatMap fun (line, index) =>
    let number := Digits.written (index + 1)
    let margin :=
      if lines.length = 1 then "    ".toList
      else List.replicate (width - number.length) ' ' ++ number ++ [':', ' ']
    let shown := if line.getLast? = some '\r' then line.dropLast else line
    margin ++ shown ++ '\n' ::
      if index = row then List.replicate margin.length ' ' ++ marks ++ ['\n'] else []

def lengthReport (pattern : Pattern) : Text :=
  let whole := pattern.written
  let before := "(?s)^".toList ++ pattern.beforeExcess
  let digits := (whole.drop before.length).takeWhile Char.isDigit
  let column := (before.reverse.takeWhile (· ≠ '\n')).length
  let marks := List.replicate column ' ' ++ List.replicate digits.length '^'
  let lines := whole.splitOn '\n'
  let rule := if lines.length = 1 then [] else List.replicate 79 '~' ++ ['\n']
  "regex parse error:\n".toList ++ rule ++ markedLines lines (before.count '\n') marks ++ rule ++
    "error: decimal literal invalid".toList

end Pattern

end Excess

-- A length is looked at before the size.
def Pattern.refusal? (pattern : Pattern) : Option Refusal :=
  if !pattern.nameable then some (.unreadable (String.ofList pattern.lengthReport))
  else if sizeLimit < pattern.weight then some (.tooBig sizeLimit)
  else none

end Stencil
