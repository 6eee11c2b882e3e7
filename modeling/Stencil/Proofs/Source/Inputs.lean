import Stencil.Proofs.Source.Lines

/-!
Which inputs a source holds, said without a way to find them. A content that is not cut is one
input without the line end at its end. A content that is cut loses that line end as well, and
has an input for each stretch between its line feeds. There is exactly one list of inputs in a
content, and it is the one that is found.
-/
namespace Stencil

-- Of two carriage returns at the end only the last one goes.
inductive LosesReturn : Bytes → Bytes → Prop
  | returned (line : Bytes) : LosesReturn (line ++ [carriageReturn]) line
  | plain {line : Bytes} (plain : line.getLast? ≠ some carriageReturn) : LosesReturn line line

theorem losesReturn_iff {line rest : Bytes} : LosesReturn line rest ↔ dropReturn line = rest := by
  constructor
  · rintro (_ | plain)
    · exact dropReturn_returned rest
    · exact dropReturn_of_plain plain
  · rintro rfl
    rcases plain_or_returned line with plain | ⟨front, rfl⟩
    · rw [dropReturn_of_plain plain]
      exact .plain plain
    · rw [dropReturn_returned]
      exact .returned front

inductive LosesLineEnd : Bytes → Bytes → Prop
  | fed {front rest : Bytes} (lost : LosesReturn front rest) :
      LosesLineEnd (front ++ [lineFeed]) rest
  | unfed {content : Bytes} (unfed : content.getLast? ≠ some lineFeed) :
      LosesLineEnd content content

/-- The stretches between the line feeds of a content, each without a carriage return. -/
inductive Stretches : Bytes → List Bytes → Prop
  | last {stretch line : Bytes} (unbroken : lineFeed ∉ stretch) (lost : LosesReturn stretch line) :
      Stretches stretch [line]
  | next {stretch line rest : Bytes} {lines : List Bytes} (unbroken : lineFeed ∉ stretch)
      (lost : LosesReturn stretch line) (further : Stretches rest lines) :
      Stretches (stretch ++ lineFeed :: rest) (line :: lines)

theorem Stretches.found {content : Bytes} {lines : List Bytes} (stretches : Stretches content lines) :
    betweenFeeds content = lines := by
  induction stretches with
  | last unbroken lost => rw [betweenFeeds_of_line unbroken, losesReturn_iff.mp lost]
  | next unbroken lost _ ih =>
      rw [betweenFeeds_append, betweenFeeds_of_line unbroken, losesReturn_iff.mp lost, ih]
      rfl

inductive Holds (cut : Prop) : Bytes → List Bytes → Prop
  | whole {content input : Bytes} (uncut : ¬ cut) (lost : LosesLineEnd content input) :
      Holds cut content [input]
  | nothing (asked : cut) : Holds cut [] []
  | lines {content rest : Bytes} {lines : List Bytes} (asked : cut) (nonempty : content ≠ [])
      (lost : LosesLineEnd content rest) (stretches : Stretches rest lines) :
      Holds cut content lines

end Stencil
