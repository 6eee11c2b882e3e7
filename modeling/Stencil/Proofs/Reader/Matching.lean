import Stencil.Proofs.Pattern.Fit
import Stencil.Proofs.Reader.Checks
import Stencil.Proofs.Template.Division

/-!
Which inputs a reader accepts, and what it captures. An input is accepted exactly
when it can be divided among the parts of the template, and then there is a table
to return. Of all divisions the reader takes the one whose captures are longest,
where the first difference counts. That is the first one that a backtracking
matcher finds for the pattern's text, and none of this depends on which patterns
the matcher refuses.
-/
namespace Stencil
namespace Reader

structure Checked (source : Text) (reader : Reader) : Prop where
  read : Template.ofText source = .ok reader.template
  tagged : reader.tags ≠ []
  apart : PrefixFree (reader.tags.map Tag.key)

section
variable {refusal? : Pattern → Option Refusal} {source : Text} {reader : Reader}

theorem checked_of_compile (compiled : compile refusal? source = .ok reader) :
    reader.Checked source := by
  obtain ⟨template, read, passed, rfl⟩ := compile_eq_ok_iff.mp compiled
  obtain ⟨tagged, apart, -⟩ := Template.check_eq_ok_iff.mp passed
  exact ⟨read, tagged, Template.not_conflicting_iff.mp apart⟩

theorem cut_iff (checked : reader.Checked source) {input : Text} {captured : List Text} :
    Cut reader.pattern input captured ↔ Division reader.template.parts input captured :=
  cut_iff_division (linked_of_ofText checked.read)

theorem accepts_iff (checked : reader.Checked source) (input : Text) :
    reader.accepts input = true ↔ ∃ captured, Division reader.template.parts input captured := by
  rw [accepts, Pattern.hasCut_eq, Pattern.fit?_isSome_iff]
  simp only [cut_iff checked]

-- A division has a text for every tag, so its table is not empty.
theorem tableOf_ne_empty (checked : reader.Checked source) {input : Text}
    {captured : List Text} (division : Division reader.template.parts input captured) :
    reader.tableOf captured ≠ .empty := by
  have length : captured.length = reader.tags.length := length_of_division division
  apply placeAll_ne_empty
  intro none
  apply checked.tagged
  rw [← List.length_eq_zero_iff]
  simpa [entriesOf, length] using congrArg List.length none

theorem read_of_fit? (checked : reader.Checked source) {input : Text} {captured : List Text}
    (fitted : reader.pattern.fit? input = some captured) :
    reader.read input = some (reader.tableOf captured) := by
  have division := (cut_iff checked).mp (Pattern.fit?_preferred fitted).1
  simp only [read, fitted, tableOf_ne_empty checked division, ↓reduceIte]

/-- A table that was read is made from the texts of a division. -/
theorem division_of_read (checked : reader.Checked source) {input : Text} {table : Table}
    (found : reader.read input = some table) :
    ∃ captured, Division reader.template.parts input captured ∧
      reader.tableOf captured = table := by
  cases fitted : reader.pattern.fit? input with
  | none => simp [read, fitted] at found
  | some captured =>
      have same := (read_of_fit? checked fitted).symm.trans found
      exact ⟨captured, (cut_iff checked).mp (Pattern.fit?_preferred fitted).1,
        Option.some.inj same⟩

theorem fit?_of_accepts {input : Text} (accepted : reader.accepts input = true) :
    ∃ captured, reader.pattern.fit? input = some captured := by
  rw [accepts, Pattern.hasCut_eq] at accepted
  exact Option.isSome_iff_exists.mp accepted

theorem read_isSome_iff (checked : reader.Checked source) (input : Text) :
    (reader.read input).isSome = true ↔ reader.accepts input = true := by
  constructor
  · intro found
    cases fitted : reader.pattern.fit? input with
    | none => simp [read, fitted] at found
    | some captured => simp [accepts, Pattern.hasCut_eq, fitted]
  · intro accepted
    rcases fit?_of_accepts accepted with ⟨captured, fitted⟩
    simp [read_of_fit? checked fitted]

/-- A template that can be divided in more ways than one, with a path that is used twice. -/
def sampleSource : Text := "{{a.x}}{{a.0: d}}{{a.x: f}}!".toList

def sample : Reader where
  source := sampleSource
  template := ⟨[
    .tag ⟨.step (.name ['a']) (.last (.name ['x'])), none, none, none, 0⟩,
    .tag ⟨.step (.name ['a']) (.last (.index 0)), some (.digits .oneOrMore), none, none, 7⟩,
    .tag ⟨.step (.name ['a']) (.last (.name ['x'])), some (.decimal .oneOrMore .oneOrMore), none,
      some '!', 17⟩,
    .literal ['!']]⟩

theorem compile_sample : compile Pattern.refusal? sampleSource = .ok sample := by
  apply toOption_eq_some_iff.mp
  decide +kernel

theorem accepts_sample : sample.accepts "b121.5!".toList = true := by
  decide +kernel

theorem fit?_sample :
    sample.pattern.fit? "b121.5!".toList = some [['b', '1'], ['2'], "1.5".toList] := by
  decide +kernel

/-- Accepting an input, reading a table from it, matching it with the pattern's
text and dividing it among the parts of the template come to the same. -/
theorem accepts_iff_divides (compiled : compile refusal? source = .ok reader) (input : Text) :
    (reader.accepts input = true ↔ (reader.read input).isSome = true) ∧
    (reader.accepts input = true ↔
      ∃ captured, Division reader.template.parts input captured) ∧
    (reader.accepts input = true ↔
      ∃ expression, Expression.ofText? reader.pattern.written = some expression ∧
        (expression.firstMatch? input).isSome = true) := by
  have checked := checked_of_compile compiled
  refine ⟨(read_isSome_iff checked input).symm, accepts_iff checked input, ?_⟩
  simp only [Expression.ofText?_written, Option.some.injEq, exists_eq_left']
  rw [accepts, Pattern.hasCut_eq, Pattern.fit?_eq]

theorem sample_divides :
    compile Pattern.refusal? sampleSource = .ok sample ∧
    (∃ captured, Division sample.template.parts "b121.5!".toList captured) ∧
    ¬ ∃ captured, Division sample.template.parts "b121.5".toList captured := by
  refine ⟨compile_sample, ?_, ?_⟩
  · exact (accepts_iff_divides compile_sample "b121.5!".toList).2.1.mp accepts_sample
  · rw [← (accepts_iff_divides compile_sample "b121.5".toList).2.1]
    decide +kernel

/-- The captured texts are those of the division with the longest captures, and
those that backtracking over the pattern's text finds first. -/
theorem read_takes_longest (compiled : compile refusal? source = .ok reader) {input : Text}
    (accepted : reader.accepts input = true) :
    ∃ captured, reader.pattern.fit? input = some captured ∧
      reader.read input = some (reader.tableOf captured) ∧
      Division reader.template.parts input captured ∧
      (∀ other, Division reader.template.parts input other →
        NoLonger (other.map List.length) (captured.map List.length) ∧
          (other.map List.length = captured.map List.length → other = captured)) ∧
      ∃ expression, Expression.ofText? reader.pattern.written = some expression ∧
        expression.firstMatch? input = some captured := by
  have checked := checked_of_compile compiled
  rcases fit?_of_accepts accepted with ⟨captured, fitted⟩
  rcases Pattern.fit?_preferred fitted with ⟨cut, preferred⟩
  refine ⟨captured, fitted, read_of_fit? checked fitted, (cut_iff checked).mp cut, ?_, ?_⟩
  · intro other division
    have otherCut := (cut_iff checked).mpr division
    refine ⟨preferred other otherCut, fun same => ?_⟩
    rw [← Pattern.captured_lengths otherCut, same, Pattern.captured_lengths cut]
  · exact ⟨_, Expression.ofText?_written reader.pattern, Pattern.fit?_eq _ _ ▸ fitted⟩

theorem sample_takes_longest :
    sample.accepts "b121.5!".toList = true ∧
    Division sample.template.parts "b121.5!".toList [['b', '1'], ['2'], "1.5".toList] ∧
    ∀ other, Division sample.template.parts "b121.5!".toList other →
      NoLonger (other.map List.length) [2, 1, 3] := by
  obtain ⟨captured, fitted, _, division, longest, _⟩ :=
    read_takes_longest compile_sample accepts_sample
  obtain rfl := Option.some.inj (fitted.symm.trans fit?_sample)
  exact ⟨accepts_sample, division, fun other found => (longest other found).1⟩

end
end Reader
end Stencil
