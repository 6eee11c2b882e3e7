import Stencil.Proofs.Reader.Matching

/-!
What the table of an accepted input holds: the last captured text of each path,
and nothing besides. The check of the paths at the start is what keeps a scalar
from standing in the way when a later one is placed.
-/
namespace Stencil
namespace Reader
variable {refusal? : Pattern → Option Refusal} {source : Text} {reader : Reader}

theorem paths_subset (reader : Reader) (captured : List Text) :
    (reader.entriesOf captured).map Prod.fst ⊆ reader.tags.map Tag.key := by
  intro path member
  rcases List.mem_map.mp member with ⟨_, placed, rfl⟩
  rcases List.mem_map.mp placed with ⟨⟨tag, content⟩, paired, rfl⟩
  exact List.mem_map.mpr ⟨tag, (List.of_mem_zip paired).1, rfl⟩

-- With a text for every tag, all paths have an entry, in the order of the tags.
theorem paths_eq {captured : List Text} (length : captured.length = reader.tags.length) :
    (reader.entriesOf captured).map Prod.fst = reader.tags.map Tag.key := by
  have firsts : (reader.tags.zip captured).map Prod.fst = reader.tags :=
    List.map_fst_zip (Nat.le_of_eq length.symm)
  rw [entriesOf, List.map_map]
  calc (reader.tags.zip captured).map (Prod.fst ∘ fun entry => (entry.1.key, Scalar.ofText entry.2))
      = ((reader.tags.zip captured).map Prod.fst).map Tag.key := by
        rw [List.map_map]
        rfl
    _ = reader.tags.map Tag.key := by rw [firsts]

theorem records_tableOf (checked : reader.Checked source) (captured : List Text) :
    (reader.tableOf captured).Records (reader.entriesOf captured) :=
  records_placeAll (checked.apart.mono (paths_subset reader captured))

/-- Where a scalar or a table stands follows from the paths of the tags alone. -/
theorem find?_tableOf_iff (checked : reader.Checked source) {captured : List Text}
    (length : captured.length = reader.tags.length) (path : Path) :
    ((∃ content, (reader.tableOf captured).find? path = some (.scalar content)) ↔
      ∃ tag ∈ reader.tags, tag.key = path) ∧
    ((∃ inner, (reader.tableOf captured).find? path = some (.table inner)) ↔
      ∃ tag ∈ reader.tags, path.isParentOf tag.key = true) := by
  have records := records_tableOf checked captured
  rw [records.exists_scalar_iff, records.exists_table_iff, paths_eq length]
  refine ⟨List.mem_map, ?_⟩
  constructor
  · rintro ⟨other, placed, parent⟩
    obtain ⟨tag, member, rfl⟩ := List.mem_map.mp placed
    exact ⟨tag, member, parent⟩
  · rintro ⟨tag, member, parent⟩
    exact ⟨tag.key, List.mem_map_of_mem member, parent⟩

-- Every scalar came from a captured text.
theorem exists_ofText_of_find? (checked : reader.Checked source) {captured : List Text}
    {path : Path} {content : Scalar}
    (found : (reader.tableOf captured).find? path = some (.scalar content)) :
    ∃ text, content = Scalar.ofText text := by
  have placed :=
    mem_of_lastScalar? (((records_tableOf checked captured).scalars path content).mp found)
  obtain ⟨entry, -, same⟩ := List.mem_map.mp placed
  exact ⟨entry.2, (Prod.mk.inj same).2.symm⟩

structure Files (reader : Reader) (captured : List Text) (table : Table) : Prop where
  every_tag : ∀ tag ∈ reader.tags, ∃ content,
    (Value.table table).descend? tag.key.segments = some (.scalar content)
  last_capture : ∀ earlier tag content later,
    reader.tags.zip captured = earlier ++ (tag, content) :: later →
    (∀ entry ∈ later, entry.1.key ≠ tag.key) →
      (Value.table table).descend? tag.key.segments = some (.scalar (Scalar.ofText content))
  only_tags : ∀ leaf ∈ table.leaves, ∃ tag ∈ reader.tags, tag.key = leaf.1
  filled : table ≠ .empty ∧ table.Filled
  sorted : table.Sorted
  never_blocked : ∀ earlier entry later,
    reader.entriesOf captured = earlier ++ entry :: later →
      ¬ (Table.placeAll earlier).Blocked entry.1

theorem files_tableOf (checked : reader.Checked source) {input : Text} {captured : List Text}
    (division : Division reader.template.parts input captured) :
    reader.Files captured (reader.tableOf captured) := by
  have length : captured.length = reader.tags.length := length_of_division division
  have records := records_tableOf checked captured
  have apart := checked.apart.mono (paths_subset reader captured)
  have sorted := placeAll_sorted (reader.entriesOf captured)
  constructor
  case every_tag =>
    intro tag member
    have placed : tag.key ∈ (reader.entriesOf captured).map Prod.fst := by
      rw [paths_eq length]
      exact List.mem_map_of_mem member
    rcases exists_lastScalar? placed with ⟨content, last⟩
    refine ⟨content, ?_⟩
    rw [Table.descend?_segments, records.scalars]
    exact last
  case last_capture =>
    intro earlier tag content later split latest
    rw [Table.descend?_segments, records.scalars, entriesOf, split, List.map_append, List.map_cons]
    have after (other : Path × Scalar)
        (member : other ∈ later.map fun entry => (entry.1.key, Scalar.ofText entry.2)) :
        other.1 ≠ tag.key := by
      rcases List.mem_map.mp member with ⟨entry, among, rfl⟩
      exact latest entry among
    exact lastScalar?_of_latest after
  -- A leaf is a recorded scalar, and those were all placed at the path of a tag.
  case only_tags =>
    rintro ⟨path, content⟩ member
    have found := Table.find?_of_mem_leaves sorted member
    have placed := mem_of_lastScalar? ((records.scalars path content).mp found)
    have among := paths_subset reader captured (List.mem_map_of_mem placed)
    simpa using among
  case filled => exact ⟨tableOf_ne_empty checked division, placeAll_filled _⟩
  case sorted => exact sorted
  case never_blocked =>
    intro earlier entry later split
    rw [split] at apart
    exact placeAll_free apart

/-- An accepted input gives a table that files what was captured. -/
theorem read_files_captures (compiled : compile refusal? source = .ok reader) {input : Text}
    (accepted : reader.accepts input = true) :
    ∃ captured table, reader.pattern.fit? input = some captured ∧
      reader.read input = some table ∧
      Division reader.template.parts input captured ∧
      captured.length = reader.tags.length ∧
      reader.Files captured table := by
  have checked := checked_of_compile compiled
  rcases fit?_of_accepts accepted with ⟨captured, fitted⟩
  have division := (cut_iff checked).mp (Pattern.fit?_preferred fitted).1
  exact ⟨captured, _, fitted, read_of_fit? checked fitted, division, length_of_division division,
    files_tableOf checked division⟩

/-- The text of the first tag is not filed, since the third has the same path. -/
theorem sample_files :
    sample.accepts "b121.5!".toList = true ∧
    ∃ table, sample.read "b121.5!".toList = some table ∧
      (Value.table table).descend? [.name ['a'], .index 0] =
        some (.scalar (Scalar.ofText ['2'])) ∧
      (Value.table table).descend? [.name ['a'], .name ['x']] =
        some (.scalar (Scalar.ofText "1.5".toList)) ∧
      table.Sorted := by
  obtain ⟨captured, table, fitted, found, _, _, files⟩ :=
    read_files_captures compile_sample accepts_sample
  obtain rfl := Option.some.inj (fitted.symm.trans fit?_sample)
  refine ⟨accepts_sample, table, found, ?_, ?_, files.sorted⟩
  · exact files.last_capture [_] _ _ [_] rfl (by decide +kernel)
  · exact files.last_capture [_, _] _ _ [] rfl (by decide +kernel)

end Reader
end Stencil
