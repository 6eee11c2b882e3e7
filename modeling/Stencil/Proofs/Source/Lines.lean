import Stencil.Proofs.Steps
import Stencil.Source

/-!
Cutting a content into lines. Lines that were written with line ends of either kind come back.
The end of the content gives up its line end before the cut, and then the last line one more
carriage return, so two returns before the last line feed are both lost; everywhere else a
content may be cut at a line feed first.
-/
namespace Stencil

section Returns
variable {line : Bytes}

theorem dropReturn_of_plain (plain : line.getLast? ≠ some carriageReturn) :
    dropReturn line = line := if_neg plain

theorem dropReturn_returned (front : Bytes) : dropReturn (front ++ [carriageReturn]) = front := by
  simp [dropReturn]

theorem plain_or_returned (line : Bytes) :
    line.getLast? ≠ some carriageReturn ∨ ∃ front, line = front ++ [carriageReturn] := by
  by_cases returned : line.getLast? = some carriageReturn
  · exact Or.inr (List.getLast?_eq_some_iff.mp returned)
  · exact Or.inl returned

theorem dropReturn_append (front back : Bytes) :
    dropReturn (front ++ lineFeed :: back) = front ++ lineFeed :: dropReturn back := by
  rcases plain_or_returned back with plain | ⟨rest, rfl⟩
  · have still : (front ++ lineFeed :: back).getLast? ≠ some carriageReturn := by
      cases back with
      | nil => simp [lineFeed, carriageReturn]
      | cons byte rest => simpa [List.getLast?_append, List.getLast?_cons_cons] using plain
    rw [dropReturn_of_plain plain, dropReturn_of_plain still]
  · rw [← List.cons_append, ← List.append_assoc, dropReturn_returned, dropReturn_returned]

theorem two_returns_iff {front : Bytes} :
    [carriageReturn, carriageReturn] <:+ front ++ [carriageReturn] ↔
      front.getLast? = some carriageReturn := by
  rw [List.getLast?_eq_some_iff]
  constructor
  · rintro ⟨rest, same⟩
    have split : rest ++ [carriageReturn] ++ [carriageReturn] = front ++ [carriageReturn] := by
      simpa using same
    exact ⟨rest, (List.append_cancel_right split).symm⟩
  · rintro ⟨rest, rfl⟩
    exact ⟨rest, by simp⟩

theorem dropReturn_twice_iff :
    dropReturn (dropReturn line) = dropReturn line ↔
      ¬ [carriageReturn, carriageReturn] <:+ line := by
  rcases plain_or_returned line with plain | ⟨front, rfl⟩
  · have single : ¬ [carriageReturn, carriageReturn] <:+ line := by
      rintro ⟨front, rfl⟩
      simp at plain
    simp [dropReturn_of_plain plain, single]
  · rw [dropReturn_returned, two_returns_iff]
    rcases plain_or_returned front with plain | ⟨rest, rfl⟩
    · simp [dropReturn_of_plain plain, plain]
    · simp [dropReturn_returned]

end Returns

section Feeds
variable {front back content : Bytes}

def betweenFeeds (content : Bytes) : List Bytes := (content.splitOn lineFeed).map dropReturn

theorem betweenFeeds_of_line {line : Bytes} (unbroken : lineFeed ∉ line) :
    betweenFeeds line = [dropReturn line] := by
  rw [betweenFeeds, List.splitOn_eq_singleton unbroken, List.map_singleton]

theorem betweenFeeds_append (front back : Bytes) :
    betweenFeeds (front ++ lineFeed :: back) = betweenFeeds front ++ betweenFeeds back := by
  rw [betweenFeeds, List.splitOn_append_cons_self, List.map_append, betweenFeeds, betweenFeeds]

theorem exists_last_line (content : Bytes) :
    ∃ line, lineFeed ∉ line ∧ (content = line ∨ ∃ front, content = front ++ lineFeed :: line) := by
  induction content with
  | nil => exact ⟨[], by simp, Or.inl rfl⟩
  | cons byte content ih =>
      obtain ⟨line, unbroken, rfl | ⟨front, rfl⟩⟩ := ih
      · by_cases feed : byte = lineFeed
        · exact ⟨content, unbroken, Or.inr ⟨[], by rw [feed, List.nil_append]⟩⟩
        · exact ⟨byte :: content, by simp [Ne.symm feed, unbroken], Or.inl rfl⟩
      · exact ⟨line, unbroken, Or.inr ⟨byte :: front, rfl⟩⟩

theorem lineFeed_not_mem_dropReturn {line : Bytes} (unbroken : lineFeed ∉ line) :
    lineFeed ∉ dropReturn line := by
  rcases plain_or_returned line with plain | ⟨front, rfl⟩
  · rwa [dropReturn_of_plain plain]
  · rw [dropReturn_returned]
    exact fun member => unbroken (List.mem_append_left _ member)

/-- A carriage return that the content gives up shows in its last line only. -/
theorem betweenFeeds_dropReturn_iff :
    betweenFeeds (dropReturn content) = betweenFeeds content ↔
      dropReturn (dropReturn content) = dropReturn content := by
  obtain ⟨line, unbroken, rfl | ⟨front, rfl⟩⟩ := exists_last_line content
  · have still := lineFeed_not_mem_dropReturn unbroken
    simp [betweenFeeds_of_line unbroken, betweenFeeds_of_line still]
  · have still := lineFeed_not_mem_dropReturn unbroken
    simp [dropReturn_append, betweenFeeds_append, betweenFeeds_of_line unbroken,
      betweenFeeds_of_line still]

theorem dropLineEnd_fed (front : Bytes) : dropLineEnd (front ++ [lineFeed]) = dropReturn front := by
  simp [dropLineEnd]

theorem dropLineEnd_of_open (unfed : content.getLast? ≠ some lineFeed) :
    dropLineEnd content = content := if_neg unfed

theorem dropLineEnd_append (front : Bytes) (nonempty : back ≠ []) :
    dropLineEnd (front ++ lineFeed :: back) = front ++ lineFeed :: dropLineEnd back := by
  by_cases fed : back.getLast? = some lineFeed
  · obtain ⟨rest, rfl⟩ := List.getLast?_eq_some_iff.mp fed
    rw [← List.cons_append, ← List.append_assoc, dropLineEnd_fed, dropLineEnd_fed,
      dropReturn_append]
  · have still : (front ++ lineFeed :: back).getLast? ≠ some lineFeed := by
      cases back with
      | nil => exact absurd rfl nonempty
      | cons byte rest => simpa [List.getLast?_append, List.getLast?_cons_cons] using fed
    rw [dropLineEnd_of_open fed, dropLineEnd_of_open still]

@[simp] theorem splitLines_nil : splitLines [] = [] := rfl

theorem splitLines_of_ne_nil (nonempty : content ≠ []) :
    splitLines content = betweenFeeds (dropLineEnd content) := if_neg nonempty

theorem splitLines_fed (front : Bytes) :
    splitLines (front ++ [lineFeed]) = betweenFeeds (dropReturn front) := by
  rw [splitLines_of_ne_nil (by simp), dropLineEnd_fed]

theorem splitLines_append (front : Bytes) (nonempty : back ≠ []) :
    splitLines (front ++ lineFeed :: back) = betweenFeeds front ++ splitLines back := by
  rw [splitLines_of_ne_nil (by simp), splitLines_of_ne_nil nonempty,
    dropLineEnd_append front nonempty, betweenFeeds_append]

/-- Where the front has no two returns to lose, its lines come first. -/
theorem splitLines_cut (single : dropReturn (dropReturn front) = dropReturn front) (back : Bytes) :
    splitLines (front ++ lineFeed :: back) = betweenFeeds front ++ splitLines back := by
  -- With nothing behind the line feed it is the end of the content, which gives up a return twice.
  by_cases empty : back = []
  · rw [empty, splitLines_fed, betweenFeeds_dropReturn_iff.mpr single, splitLines_nil,
      List.append_nil]
  · exact splitLines_append front empty

/-- A content may be cut at a line feed first, and then into lines, unless two carriage returns
stand before the line feed and something behind it. -/
theorem lines_append_iff (front back : Bytes) :
    contentInputs true (front ++ lineFeed :: back) =
        contentInputs true (front ++ [lineFeed]) ++ contentInputs true back ↔
      back = [] ∨ ¬ [carriageReturn, carriageReturn] <:+ front := by
  change splitLines _ = splitLines _ ++ splitLines _ ↔ _
  by_cases empty : back = []
  · simp [empty]
  · rw [splitLines_append front empty, splitLines_fed, List.append_cancel_right_eq, eq_comm,
      betweenFeeds_dropReturn_iff, dropReturn_twice_iff]
    simp [empty]

/-- The same line with two carriage returns, twice over: the first keeps one of them, and the
last one none. -/
theorem last_line_loses_two_returns :
    contentInputs true ([13, 13] ++ lineFeed :: [13, 13, 10]) = [[13], []] ∧
    contentInputs true ([13, 13] ++ lineFeed :: [13, 13, 10]) ≠
      contentInputs true ([13, 13] ++ [lineFeed]) ++ contentInputs true [13, 13, 10] := by
  decide

end Feeds

section Written

inductive LineEnd where
  | feed
  | returnFeed
  deriving DecidableEq, Repr

def LineEnd.bytes : LineEnd → Bytes
  | .feed => [lineFeed]
  | .returnFeed => [carriageReturn, lineFeed]

def PlainLine (line : Bytes) : Prop := lineFeed ∉ line ∧ line.getLast? ≠ some carriageReturn

/-- The content holds the lines one after the other, each with a line end of either kind. The
last line needs no line end if it is not empty. -/
inductive WrittenLines : List Bytes → Bytes → Prop
  | none : WrittenLines [] []
  | unended {line : Bytes} (nonempty : line ≠ []) : WrittenLines [line] line
  | ended {line content : Bytes} {lines : List Bytes} (ending : LineEnd)
      (rest : WrittenLines lines content) :
      WrittenLines (line :: lines) (line ++ ending.bytes ++ content)

variable {line content : Bytes} {lines : List Bytes}

theorem splitLines_unended (plain : PlainLine line) (nonempty : line ≠ []) :
    splitLines line = [line] := by
  obtain ⟨unbroken, kept⟩ := plain
  have unfed : line.getLast? ≠ some lineFeed := fun fed => unbroken (List.mem_of_getLast? fed)
  rw [splitLines_of_ne_nil nonempty, dropLineEnd_of_open unfed, betweenFeeds_of_line unbroken,
    dropReturn_of_plain kept]

/-- A line in front of others is the first one, whatever kind of line end it has. -/
theorem splitLines_ended (plain : PlainLine line) (ending : LineEnd) (content : Bytes) :
    splitLines (line ++ ending.bytes ++ content) = line :: splitLines content := by
  obtain ⟨unbroken, kept⟩ := plain
  have alone := dropReturn_of_plain kept
  cases ending with
  | feed =>
      have cut := splitLines_cut (congrArg dropReturn alone) content
      rw [betweenFeeds_of_line unbroken, alone] at cut
      simpa [LineEnd.bytes] using cut
  | returnFeed =>
      have returned := dropReturn_returned line
      have unfed : lineFeed ∉ line ++ [carriageReturn] := by
        have apart : lineFeed ≠ carriageReturn := by decide
        simp [unbroken, apart]
      have single : dropReturn (dropReturn (line ++ [carriageReturn])) =
          dropReturn (line ++ [carriageReturn]) := by rw [returned, alone]
      have cut := splitLines_cut single content
      rw [betweenFeeds_of_line unfed, returned] at cut
      simpa [LineEnd.bytes] using cut

theorem splitLines_written (plain : ∀ line ∈ lines, PlainLine line)
    (written : WrittenLines lines content) : splitLines content = lines := by
  induction written with
  | none => rfl
  | unended nonempty => exact splitLines_unended (plain _ (by simp)) nonempty
  | ended ending rest ih =>
      obtain ⟨here, further⟩ := List.forall_mem_cons.mp plain
      rw [splitLines_ended here ending, ih further]

def Source.Gives (source : Source) (supply : Supply) (content : Bytes) : Prop :=
  match source with
  | .arguments _ => False
  | .file path => supply.file path = .ok content
  | .standardInput => supply.standardInput = content

theorem Source.inputs_of_gives {source : Source} {supply : Supply}
    (gives : source.Gives supply content) (lines : Bool) :
    source.inputs lines supply = .ok (contentInputs lines content) := by
  cases source with
  | arguments inputs => exact gives.elim
  | file path =>
      have read : supply.file path = .ok content := gives
      rw [inputs, read]
      rfl
  | standardInput =>
      have read : supply.standardInput = content := gives
      rw [inputs, read]

/-- Lines that were written are read again, from a file or from standard input, and nothing is
read where nothing was written. -/
theorem Source.inputs_of_written (plain : ∀ line ∈ lines, PlainLine line)
    (written : WrittenLines lines content) (source : Source) (supply : Supply) :
    (source.Gives supply content → source.inputs true supply = .ok lines) ∧
      (source.Gives supply [] → source.inputs true supply = .ok []) := by
  constructor
  · intro gives
    rw [inputs_of_gives gives, ← splitLines_written plain written]
    rfl
  · intro gives
    rw [inputs_of_gives gives]
    rfl

/-- Empty lines at the start and between others, a return inside a line, and no line end at the
end. -/
theorem mixed_lines_written :
    (∀ line ∈ [[], [97, 13, 98], [], [99]], PlainLine line) ∧
    WrittenLines [[], [97, 13, 98], [], [99]] [13, 10, 97, 13, 98, 10, 13, 10, 99] ∧
    Source.standardInput.inputs true
        ⟨[13, 10, 97, 13, 98, 10, 13, 10, 99], fun _ => .error .missing⟩ =
      .ok [[], [97, 13, 98], [], [99]] := by
  have plain : ∀ line ∈ [[], [97, 13, 98], [], [99]], PlainLine line := by
    simp [PlainLine, lineFeed, carriageReturn]
  have written : WrittenLines [[], [97, 13, 98], [], [99]]
      [13, 10, 97, 13, 98, 10, 13, 10, 99] :=
    .ended .returnFeed (.ended .feed (.ended .returnFeed (.unended (by simp))))
  exact ⟨plain, written, (Source.inputs_of_written plain written _ _).1 rfl⟩

end Written
end Stencil
