import Stencil.Proofs.Reader.Contents
import Stencil.Proofs.Template.Filling

/-!
Reading gets back what was written into a template. Where all tags are delimited
the texts put in their places are the captured ones, whatever else they hold.
-/
namespace Stencil
namespace Reader
variable {refusal? : Pattern → Option Refusal} {source : Text} {reader : Reader}

theorem fit?_fill (checked : reader.Checked source)
    (delimited : Delimited reader.template.parts) {texts : List Text}
    (fills : Fills reader.template.parts texts) :
    reader.pattern.fit? (fill reader.template.parts texts) = some texts := by
  have division := division_of_fills fills
  have accepted := (accepts_iff checked _).mpr ⟨texts, division⟩
  -- The filled template has a division, and delimited tags leave room for no other.
  rcases fit?_of_accepts accepted with ⟨captured, fitted⟩
  have found := (cut_iff checked).mp (Pattern.fit?_preferred fitted).1
  rw [fitted, division_unique delimited found division]

/-- Reading a filled template gives the texts back as scalars, each placed at the
path of its tag in turn. Where tags share a path, the last one's scalar is there. -/
theorem read_fill (compiled : compile refusal? source = .ok reader)
    (delimited : Delimited reader.template.parts) {texts : List Text}
    (fills : Fills reader.template.parts texts) :
    reader.pattern.fit? (fill reader.template.parts texts) = some texts ∧
    reader.read (fill reader.template.parts texts) =
      some (Table.placeAll
        ((reader.tags.zip texts).map fun entry => (entry.1.key, Scalar.ofText entry.2))) ∧
    ∀ path content,
      (Value.table (reader.tableOf texts)).descend? path.segments = some (.scalar content) ↔
        lastScalar? (reader.entriesOf texts) path = some content := by
  have checked := checked_of_compile compiled
  have fitted := fit?_fill checked delimited fills
  refine ⟨fitted, read_of_fit? checked fitted, fun path content => ?_⟩
  rw [Table.descend?_segments]
  exact (records_tableOf checked texts).scalars path content

/-- A template whose tags end at a literal, after two digits and at a literal again. -/
def delimitedSource : Text := "{{a.x}}-{{a.0: 2d}}{{a.x: f}}!".toList

def delimitedSample : Reader where
  source := delimitedSource
  template := ⟨[
    .tag ⟨.step (.name ['a']) (.last (.name ['x'])), none, none, some '-', 0⟩,
    .literal ['-'],
    .tag ⟨.step (.name ['a']) (.last (.index 0)), some (.digits (.exactly 2 (by decide))),
      some '-', none, 8⟩,
    .tag ⟨.step (.name ['a']) (.last (.name ['x'])), some (.decimal .oneOrMore .oneOrMore), none,
      some '!', 19⟩,
    .literal ['!']]⟩

/-- The first text holds a brace and the character behind the last tag. -/
theorem delimited_sample_read :
    compile Pattern.refusal? delimitedSource = .ok delimitedSample ∧
    fill delimitedSample.template.parts [['}', '!'], ['1', '2'], "1.5".toList] =
      '}' :: "!-121.5!".toList ∧
    delimitedSample.pattern.fit? ('}' :: "!-121.5!".toList) =
      some [['}', '!'], ['1', '2'], "1.5".toList] := by
  have compiled : compile Pattern.refusal? delimitedSource = .ok delimitedSample := by
    apply toOption_eq_some_iff.mp
    decide +kernel
  have delimited : Delimited delimitedSample.template.parts := by
    refine ⟨Or.inr (Or.inr ⟨'-', rfl, trivial⟩), Or.inl trivial, ?_, trivial⟩
    exact Or.inr (Or.inr ⟨'!', rfl, rfl⟩)
  have fills : Fills delimitedSample.template.parts
      [['}', '!'], ['1', '2'], "1.5".toList] := by
    refine ⟨⟨by simp, by simp⟩, ⟨by simp, rfl⟩, ⟨['1'], ['5'], rfl, ?_, ?_⟩, rfl⟩
    · exact ⟨by simp, by decide⟩
    · exact ⟨by simp, by decide⟩
  have filled : fill delimitedSample.template.parts
      [['}', '!'], ['1', '2'], "1.5".toList] = '}' :: "!-121.5!".toList := rfl
  have recovered := (read_fill compiled delimited fills).1
  rw [filled] at recovered
  exact ⟨compiled, filled, recovered⟩

end Reader
end Stencil
