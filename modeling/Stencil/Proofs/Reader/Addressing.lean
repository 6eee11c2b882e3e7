import Stencil.Proofs.Reader.Contents
import Stencil.Proofs.Template.Dotted
import Stencil.Proofs.Template.Rewriting

/-!
Looking up values by text. Whatever is asked for, the answer can be told from the texts
of the tags' paths: a value stands at exactly these texts, a table at exactly those that
such a text goes on from with a dot, and nothing at any other, however close it comes.
-/
namespace Stencil

theorem Value.get?_written {path : Path} (plain : path.Plain) (table : Table) :
    (Value.table table).get? path.written = table.find? path := by
  rw [Value.get?, Path.segments_of_plain plain, Table.descend?_segments]

namespace Reader
variable {refusal? : Pattern → Option Refusal} {source : Text} {reader : Reader}

theorem Checked.plain (checked : reader.Checked source) {tag : Tag} (member : tag ∈ reader.tags) :
    tag.key.Plain :=
  (Template.legal_of_ofText checked.read tag member).key.plain

section
variable {captured : List Text}

/-- A scalar stands at the texts of the tags' paths. A text is that of one path only, so
it tells what the path tells. -/
theorem get?_scalar_iff (checked : reader.Checked source)
    (length : captured.length = reader.tags.length) (asked : Text) :
    (∃ content, (Value.table (reader.tableOf captured)).get? asked = some (.scalar content)) ↔
      ∃ tag ∈ reader.tags, tag.key.written = asked := by
  obtain ⟨path, plain, rfl⟩ := Path.exists_plain asked
  rw [Value.get?_written plain, (find?_tableOf_iff checked length path).1]
  constructor
  · rintro ⟨tag, member, rfl⟩
    exact ⟨tag, member, rfl⟩
  · rintro ⟨tag, member, same⟩
    exact ⟨tag, member, (checked.plain member).eq_of_written plain same⟩

/-- A table stands at the texts that the text of a tag's path goes on from with a dot. -/
theorem get?_table_iff (checked : reader.Checked source)
    (length : captured.length = reader.tags.length) (asked : Text) :
    (∃ inner, (Value.table (reader.tableOf captured)).get? asked = some (.table inner)) ↔
      ∃ tag ∈ reader.tags, asked ++ ['.'] <+: tag.key.written := by
  obtain ⟨path, plain, rfl⟩ := Path.exists_plain asked
  rw [Value.get?_written plain, (find?_tableOf_iff checked length path).2]
  constructor
  · rintro ⟨tag, member, parent⟩
    exact ⟨tag, member, (Path.isParentOf_iff_written plain (checked.plain member)).mp parent⟩
  · rintro ⟨tag, member, start⟩
    exact ⟨tag, member, (Path.isParentOf_iff_written plain (checked.plain member)).mpr start⟩

theorem get?_none_iff (checked : reader.Checked source)
    (length : captured.length = reader.tags.length) (asked : Text) :
    (Value.table (reader.tableOf captured)).get? asked = none ↔
      ∀ tag ∈ reader.tags, tag.key.written ≠ asked ∧ ¬ asked ++ ['.'] <+: tag.key.written := by
  have scalar_iff := get?_scalar_iff checked length asked
  have table_iff := get?_table_iff checked length asked
  constructor
  · intro nothing tag member
    constructor
    · intro same
      obtain ⟨content, found⟩ := scalar_iff.mpr ⟨tag, member, same⟩
      simp [nothing] at found
    · intro start
      obtain ⟨inner, found⟩ := table_iff.mpr ⟨tag, member, start⟩
      simp [nothing] at found
  · intro apart
    apply Option.eq_none_iff_forall_ne_some.mpr
    intro value found
    cases value with
    | scalar content =>
        obtain ⟨tag, member, same⟩ := scalar_iff.mp ⟨content, found⟩
        exact (apart tag member).1 same
    | table inner =>
        obtain ⟨tag, member, start⟩ := table_iff.mp ⟨inner, found⟩
        exact (apart tag member).2 start

end

structure Answers (reader : Reader) (captured : List Text) (table : Table) : Prop where
  scalar_iff : ∀ asked, (∃ content, (Value.table table).get? asked = some (.scalar content)) ↔
    ∃ tag ∈ reader.tags, tag.key.written = asked
  last_capture : ∀ earlier tag content later,
    reader.tags.zip captured = earlier ++ (tag, content) :: later →
    (∀ entry ∈ later, entry.1.key.written ≠ tag.key.written) →
      (Value.table table).get? tag.key.written = some (.scalar (Scalar.ofText content))
  table_iff : ∀ asked, (∃ inner, (Value.table table).get? asked = some (.table inner)) ↔
    ∃ tag ∈ reader.tags, asked ++ ['.'] <+: tag.key.written
  none_iff : ∀ asked, (Value.table table).get? asked = none ↔
    ∀ tag ∈ reader.tags, tag.key.written ≠ asked ∧ ¬ asked ++ ['.'] <+: tag.key.written

theorem answers_tableOf (checked : reader.Checked source) {input : Text} {captured : List Text}
    (division : Division reader.template.parts input captured) :
    reader.Answers captured (reader.tableOf captured) := by
  have length : captured.length = reader.tags.length := length_of_division division
  constructor
  case scalar_iff => exact get?_scalar_iff checked length
  case table_iff => exact get?_table_iff checked length
  case none_iff => exact get?_none_iff checked length
  case last_capture =>
    intro earlier tag content later split latest
    have member : tag ∈ reader.tags := by
      have paired : (tag, content) ∈ reader.tags.zip captured := by simp [split]
      exact (List.of_mem_zip paired).1
    rw [Value.get?_written (checked.plain member), ← Table.descend?_segments]
    apply (files_tableOf checked division).last_capture earlier tag content later split
    exact fun entry among same => latest entry among (congrArg Path.written same)

/-- Every text that the value of an accepted input is asked for is answered from the texts
of the tags' paths and what the tags captured last. -/
theorem read_answers (compiled : compile refusal? source = .ok reader) {input : Text}
    (accepted : reader.accepts input = true) :
    ∃ captured table, reader.pattern.fit? input = some captured ∧
      reader.read input = some table ∧
      Division reader.template.parts input captured ∧
      reader.Answers captured table := by
  have checked := checked_of_compile compiled
  obtain ⟨captured, fitted⟩ := fit?_of_accepts accepted
  have division := (cut_iff checked).mp (Pattern.fit?_preferred fitted).1
  exact ⟨captured, _, fitted, read_of_fit? checked fitted, division,
    answers_tableOf checked division⟩

/-- Neither a leading zero nor a blank nor an empty piece is overlooked. -/
theorem sample_answers :
    sample.accepts "b121.5!".toList = true ∧
    ∃ table, sample.read "b121.5!".toList = some table ∧
      (Value.table table).get? "a.x".toList = some (.scalar (Scalar.ofText "1.5".toList)) ∧
      (Value.table table).get? "a.00".toList = none ∧
      (Value.table table).get? "a. x".toList = none ∧
      (Value.table table).get? "a..x".toList = none ∧
      ∃ inner, (Value.table table).get? ['a'] = some (.table inner) := by
  obtain ⟨captured, table, fitted, found, _, answers⟩ :=
    read_answers compile_sample accepts_sample
  obtain rfl := Option.some.inj (fitted.symm.trans fit?_sample)
  refine ⟨accepts_sample, table, found, ?_, ?_, ?_, ?_, ?_⟩
  · exact answers.last_capture [_, _] _ _ [] rfl (by decide +kernel)
  · exact (answers.none_iff _).mpr (by decide +kernel)
  · exact (answers.none_iff _).mpr (by decide +kernel)
  · exact (answers.none_iff _).mpr (by decide +kernel)
  · exact (answers.table_iff _).mpr (by decide +kernel)

end Reader
end Stencil
