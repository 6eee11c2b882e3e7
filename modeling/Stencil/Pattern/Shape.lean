import Stencil.Template.Basic

/-!
A template stands for a pattern: literals that an input must hold verbatim and
captures that each take a stretch of it. A capture takes a run of characters of
one class, or a decimal: digits, a point, digits.
-/
namespace Stencil

inductive CharClass where
  | noBrace
  | digit
  | except (barred : Char)
  | only (allowed : Char)
  deriving DecidableEq, Repr

-- Digits are the ASCII digits; no other script's digits count.
def CharClass.holds : CharClass → Char → Bool
  | .noBrace, c => c ≠ '{' && c ≠ '}'
  | .digit, c => c.isDigit
  | .except barred, c => c ≠ barred
  | .only allowed, c => c = allowed

inductive Shape where
  | run (chars : CharClass) (count : Count)
  | decimal (before after : Count)
  deriving DecidableEq, Repr

def IsRun (chars : CharClass) (count : Count) (content : Text) : Prop :=
  (∀ c ∈ content, chars.holds c = true) ∧ count.Allows content.length

def Shape.Fits : Shape → Text → Prop
  | .run chars count, content => IsRun chars count content
  | .decimal before after, content =>
      ∃ whole fraction, content = whole ++ '.' :: fraction ∧
        IsRun .digit before whole ∧ IsRun .digit after fraction

/-- A tag without a specifier runs up to the character that follows it; with no
character after it, it takes anything but braces. What stands before the tag is
already taken by the literal there. -/
def Tag.shape (tag : Tag) : Shape :=
  match tag.specifier with
  | none =>
      match tag.after with
      | some following => .run (.except following) .oneOrMore
      | none => .run .noBrace .oneOrMore
  | some specifier =>
      match specifier.extent with
      | .point before after => .decimal before after
      | .chars count =>
          match specifier.kind with
          | .digits => .run .digit count
          | _ => .run .noBrace count

inductive Piece where
  | literal (content : Text)
  | capture (shape : Shape)
  deriving DecidableEq, Repr

abbrev Pattern := List Piece

def Fragment.piece : Fragment → Piece
  | .literal content => .literal content
  | .tag content => .capture content.shape

def Template.pattern (template : Template) : Pattern := template.parts.map Fragment.piece

end Stencil
