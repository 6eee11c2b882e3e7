import Stencil.Proofs.Json.Faithful
import Stencil.Proofs.Json.Shape
import Stencil.Proofs.Reader.Addressing

/-!
The JSON tree of what a reader finds. Its shape is that of the paths of the tags, so all
inputs of one template have trees of one shape, in which only strings and numbers differ,
and the tree tells all that was found.
-/
namespace Stencil

theorem Json.isValue_of_finite {content : Scalar} (finite : content.Finite) :
    (Json.ofScalar content).IsValue := by
  cases content with
  | text | integer => trivial
  | float number =>
      rw [Json.ofScalar, if_pos (show number.isFinite = true from finite)]
      trivial

namespace Reader
variable {refusal? : Pattern → Option Refusal} {source : Text} {reader : Reader}

def Follows (reader : Reader) (keys : List Key) (key : Key) : Prop :=
  ∃ tag ∈ reader.tags, keys ++ [key] <+: tag.key.segments

/-- The tree has a node for every start of a tag's path. The whole paths lead to strings
and numbers, and an array is where the next keys in the paths count up from zero. -/
structure Shapes (reader : Reader) (tree : Json) : Prop where
  nodes : ∀ keys, (∃ node, tree.At keys node) ↔ ∃ tag ∈ reader.tags, keys <+: tag.key.segments
  values : ∀ keys node, tree.At keys node →
    (node.IsValue ↔ ∃ tag ∈ reader.tags, tag.key.segments = keys)
  arrays : ∀ keys node, tree.At keys node →
    ((∃ items, node = .array items) ↔ Json.CountsUp (reader.Follows keys))
  no_null : ∀ keys, ¬ tree.At keys .null

section
variable {captured : List Text}

theorem descend?_scalar_iff (checked : reader.Checked source)
    (length : captured.length = reader.tags.length) (keys : List Key) :
    (∃ content, (Value.table (reader.tableOf captured)).descend? keys = some (.scalar content)) ↔
      ∃ tag ∈ reader.tags, tag.key.segments = keys := by
  simp only [Table.descend?_eq_scalar_iff]
  constructor
  · rintro ⟨content, path, rfl, found⟩
    obtain ⟨tag, member, rfl⟩ := (find?_tableOf_iff checked length path).1.mp ⟨content, found⟩
    exact ⟨tag, member, rfl⟩
  · rintro ⟨tag, member, rfl⟩
    obtain ⟨content, found⟩ :=
      (find?_tableOf_iff checked length tag.key).1.mpr ⟨tag, member, rfl⟩
    exact ⟨content, tag.key, rfl, found⟩

/-- One can descend along the paths of the tags and nowhere else. -/
theorem descend?_tableOf_iff (checked : reader.Checked source)
    (length : captured.length = reader.tags.length) (keys : List Key) :
    (∃ found, (Value.table (reader.tableOf captured)).descend? keys = some found) ↔
      ∃ tag ∈ reader.tags, keys <+: tag.key.segments := by
  by_cases empty : keys = []
  · subst empty
    obtain ⟨tag, member⟩ := List.exists_mem_of_ne_nil _ checked.tagged
    exact ⟨fun _ => ⟨tag, member, List.nil_prefix⟩, fun _ => ⟨_, rfl⟩⟩
  · obtain ⟨path, rfl⟩ := Path.exists_segments empty
    have stands := find?_tableOf_iff checked length path
    rw [Table.descend?_segments]
    constructor
    · rintro ⟨found, reached⟩
      cases found with
      | scalar content =>
          obtain ⟨tag, member, rfl⟩ := stands.1.mp ⟨content, reached⟩
          exact ⟨tag, member, List.prefix_rfl⟩
      | table inner =>
          obtain ⟨tag, member, parent⟩ := stands.2.mp ⟨inner, reached⟩
          exact ⟨tag, member, ((Path.isParentOf_iff _ _).mp parent).1⟩
    · rintro ⟨tag, member, start⟩
      by_cases whole : path.segments = tag.key.segments
      · obtain ⟨content, reached⟩ :=
          stands.1.mpr ⟨tag, member, (Path.segments_injective whole).symm⟩
        exact ⟨_, reached⟩
      · obtain ⟨inner, reached⟩ :=
          stands.2.mpr ⟨tag, member, (Path.isParentOf_iff _ _).mpr ⟨start, whole⟩⟩
        exact ⟨_, reached⟩

theorem readable_tableOf (checked : reader.Checked source)
    (length : captured.length = reader.tags.length) :
    Json.Readable (.table (reader.tableOf captured)) := by
  intro keys found reached key member
  obtain ⟨tag, among, start⟩ := (descend?_tableOf_iff checked length keys).mp ⟨found, reached⟩
  exact (checked.plain among key (start.subset member)).read

theorem proper_tableOf (checked : reader.Checked source) (captured : List Text) :
    (reader.tableOf captured).Proper := by
  refine placeAll_proper fun entry member => ?_
  obtain ⟨tag, among, same⟩ :=
    List.mem_map.mp (paths_subset reader captured (List.mem_map_of_mem member))
  obtain ⟨⟨_, text⟩, -, rfl⟩ := List.mem_map.mp member
  refine ⟨fun key step => ?_, Scalar.finite_ofText text⟩
  rw [← same] at step
  exact Key.made_iff.mpr (checked.plain among key step).read

/-- The tables of any two readers have the same JSON only if they are the same table. -/
theorem tableOf_eq_of_json {other : Reader} {otherSource : Text} (checked : reader.Checked source)
    (otherChecked : other.Checked otherSource) {others : List Text}
    (same : Json.ofTable (reader.tableOf captured) = Json.ofTable (other.tableOf others)) :
    reader.tableOf captured = other.tableOf others := by
  have sorted := placeAll_sorted (reader.entriesOf captured)
  have otherSorted := placeAll_sorted (other.entriesOf others)
  have proper := proper_tableOf checked captured
  have otherProper := proper_tableOf otherChecked others
  exact Json.entriesOf_injective sorted proper otherSorted otherProper
    (Json.entries_eq_of_ofTable sorted proper otherSorted otherProper same)

/-- Every scalar of the table has a string or a number for its node. -/
theorem values_tableOf (checked : reader.Checked source) (captured : List Text) :
    ∀ leaf ∈ (reader.tableOf captured).leaves, (Json.ofScalar leaf.2).IsValue := by
  rintro ⟨path, content⟩ member
  have found := Table.find?_of_mem_leaves (placeAll_sorted _) member
  obtain ⟨text, rfl⟩ := exists_ofText_of_find? checked found
  exact Json.isValue_of_finite (Scalar.finite_ofText text)

theorem blanked_tableOf {other : List Text} (length : captured.length = reader.tags.length)
    (otherLength : other.length = reader.tags.length) :
    (reader.tableOf captured).blanked = (reader.tableOf other).blanked := by
  apply Table.blanked_placeAll_congr
  rw [paths_eq length, paths_eq otherLength]

theorem isValue_of_descend? (checked : reader.Checked source) {keys : List Key}
    {content : Scalar}
    (reached : (Value.table (reader.tableOf captured)).descend? keys = some (.scalar content)) :
    (Json.ofScalar content).IsValue := by
  obtain ⟨path, rfl, found⟩ := Table.descend?_eq_scalar_iff.mp reached
  exact values_tableOf checked captured _ (Table.mem_leaves_of_find? found)

theorem follows_iff (checked : reader.Checked source)
    (length : captured.length = reader.tags.length) {keys : List Key} {found : Value}
    (reached : (Value.table (reader.tableOf captured)).descend? keys = some found) (key : Key) :
    reader.Follows keys key ↔ ∃ inner, found.child? key = some inner := by
  rw [Follows, ← descend?_tableOf_iff checked length, Value.descend?_append, reached]
  simp [Value.descend?]

theorem shapes_ofTable (checked : reader.Checked source) {input : Text}
    (division : Division reader.template.parts input captured) :
    reader.Shapes (Json.ofTable (reader.tableOf captured)) := by
  have length : captured.length = reader.tags.length := length_of_division division
  have sorted : (Value.table (reader.tableOf captured)).Sorted := placeAll_sorted _
  have filled : (Value.table (reader.tableOf captured)).Filled :=
    ⟨tableOf_ne_empty checked division, placeAll_filled _⟩
  have reached_iff (keys : List Key) (node : Json) :
      (Json.ofTable (reader.tableOf captured)).At keys node ↔
        ∃ found, (Value.table (reader.tableOf captured)).descend? keys = some found ∧
          node = Json.ofValue found :=
    Json.at_ofValue_iff sorted (readable_tableOf checked length)
  constructor
  case nodes =>
    intro keys
    rw [← descend?_tableOf_iff checked length keys]
    constructor
    · rintro ⟨node, reached⟩
      obtain ⟨found, descended, -⟩ := (reached_iff keys node).mp reached
      exact ⟨found, descended⟩
    · rintro ⟨found, descended⟩
      exact ⟨_, (reached_iff keys _).mpr ⟨found, descended, rfl⟩⟩
  case values =>
    intro keys node reached
    obtain ⟨found, descended, rfl⟩ := (reached_iff keys node).mp reached
    rw [← descend?_scalar_iff checked length keys, descended]
    cases found with
    | scalar content => simpa [Json.ofValue] using isValue_of_descend? checked descended
    | table inner => simpa [Json.ofValue] using Json.not_isValue_ofTable inner
  case arrays =>
    intro keys node reached
    obtain ⟨found, descended, rfl⟩ := (reached_iff keys node).mp reached
    have foundSorted := Value.descend?_keeps Value.sorted_child? sorted descended
    have foundFilled := Value.descend?_keeps Value.filled_child? filled descended
    have nonempty : found ≠ .table .empty := by
      rintro rfl
      exact foundFilled.1 rfl
    rw [Json.isArray_ofValue_iff foundSorted nonempty]
    simp only [← follows_iff checked length descended]
  case no_null =>
    intro keys reached
    obtain ⟨found, descended, same⟩ := (reached_iff keys .null).mp reached
    cases found with
    | scalar content =>
        have value := isValue_of_descend? checked descended
        have null : Json.ofScalar content = .null := same.symm
        rw [null] at value
        exact value
    | table inner => exact Json.ofTable_ne_null inner same.symm

end

/-- Whatever two inputs hold, their trees have one shape, and the template tells which. -/
theorem read_shapes (compiled : compile refusal? source = .ok reader) {first second : Text}
    {table other : Table} (firstRead : reader.read first = some table)
    (secondRead : reader.read second = some other) :
    (Json.ofTable table).blanked = (Json.ofTable other).blanked ∧
    reader.Shapes (Json.ofTable table) ∧ reader.Shapes (Json.ofTable other) := by
  have checked := checked_of_compile compiled
  obtain ⟨captured, division, rfl⟩ := division_of_read checked firstRead
  obtain ⟨others, otherDivision, rfl⟩ := division_of_read checked secondRead
  refine ⟨?_, shapes_ofTable checked division, shapes_ofTable checked otherDivision⟩
  rw [Json.blanked_ofTable (values_tableOf checked captured),
    Json.blanked_ofTable (values_tableOf checked others),
    blanked_tableOf (length_of_division division) (length_of_division otherDivision)]

/-- A template with an array, and with an index that has no array. -/
def sparseSource : Text := "{{p.0}} {{p.1}};{{q.1: d}}".toList

def sparseSample : Reader where
  source := sparseSource
  template := ⟨[
    .tag ⟨.step (.name ['p']) (.last (.index 0)), none, none, some ' ', 0⟩,
    .literal [' '],
    .tag ⟨.step (.name ['p']) (.last (.index 1)), none, some ' ', some ';', 8⟩,
    .literal [';'],
    .tag ⟨.step (.name ['q']) (.last (.index 1)), some (.digits .oneOrMore), some ';', none, 16⟩]⟩

def sparseTable (first second third : Scalar) : Table :=
  .branch (.name ['p']) (.leaf (.index 0) first (.leaf (.index 1) second .empty)) <|
    .branch (.name ['q']) (.leaf (.index 1) third .empty) .empty

/-- The second input has a literal too great for a number, and still no null. -/
theorem sparse_shapes :
    compile Pattern.refusal? sparseSource = .ok sparseSample ∧
    ∃ table other,
      sparseSample.read "a 1.5;7".toList = some table ∧
      sparseSample.read "-2 1e999;007".toList = some other ∧
      (Json.ofTable table).blanked = (Json.ofTable other).blanked ∧
      ∀ keys, ¬ (Json.ofTable other).At keys .null := by
  have compiled : compile Pattern.refusal? sparseSource = .ok sparseSample := by
    apply toOption_eq_some_iff.mp
    decide +kernel
  have first : sparseSample.read "a 1.5;7".toList =
      some (sparseTable (.text ['a']) (.float ⟨0x3FF8000000000000⟩) (.integer 7)) := by
    decide +kernel
  have second : sparseSample.read "-2 1e999;007".toList =
      some (sparseTable (.integer (-2)) (.text "1e999".toList) (.text "007".toList)) := by
    decide +kernel
  obtain ⟨same, -, shapes⟩ := read_shapes compiled first second
  exact ⟨compiled, _, _, first, second, same, shapes.no_null⟩

end Reader
end Stencil
