import Stencil.Proofs.Json.Nodes
import Stencil.Proofs.Value.Proper

/-!
What the JSON of a table keeps. No two keys of one level have the same text, and every entry
has an item or a member of its own. Nothing but an infinite number is lost: two tables with
the same JSON are the same.
-/
namespace Stencil
namespace Json

theorem readable_of_proper {table : Table} (proper : table.Proper) :
    ∀ key ∈ (entriesOf table).map Prod.fst, Key.ofText key.written = key := by
  rw [keys_entriesOf]
  intro key member
  obtain ⟨entry, among, rfl⟩ := List.mem_map.mp member
  exact Key.made_iff.mp (Table.proper_iff.mp proper entry among).1

theorem ordered_of_sorted {table : Table} (sorted : table.Sorted) :
    ((entriesOf table).map Prod.fst).Pairwise (· < ·) := by
  rw [keys_entriesOf]
  exact Table.pairwise_keys sorted

theorem getElem?_of_isSequence {keys : List Key} (sequence : isSequence keys = true)
    {number : UInt64} (member : Key.index number ∈ keys) :
    keys[number.toNat]? = some (.index number) := by
  have counted := (isSequence_iff_getElem? keys).mp sequence
  obtain ⟨position, held⟩ := List.getElem?_of_mem member
  have inside : position < keys.length := (List.getElem?_eq_some_iff.mp held).1
  have same : number = UInt64.ofNat position := Key.index.inj (counted position _ held)
  have early : number.toNat < keys.length := by
    rw [same, UInt64.toNat_ofNat']
    exact Nat.lt_of_le_of_lt (Nat.mod_le _ _) inside
  have there := counted number.toNat _ (List.getElem?_eq_getElem early)
  rw [List.getElem?_eq_getElem early, there, UInt64.ofNat_toNat]

theorem mem_entriesOf_iff {table : Table} (sorted : table.Sorted) {key : Key} {node : Json} :
    (key, node) ∈ entriesOf table ↔
      ∃ value, table.get? key = some value ∧ ofValue value = node := by
  simp only [entriesOf_eq, List.mem_map, Table.get?_eq_some_iff_mem sorted]
  constructor
  · rintro ⟨⟨_, value⟩, member, same⟩
    obtain ⟨rfl, rfl⟩ := Prod.mk.inj same
    exact ⟨value, member, rfl⟩
  · rintro ⟨value, member, rfl⟩
    exact ⟨(key, value), member, rfl⟩

structure Faithful (table : Table) : Prop where
  array_iff : (∃ items, ofTable table = .array items) ↔
    ∃ count : Nat, ∀ key, (∃ value, table.get? key = some value) ↔
      ∃ number : UInt64, key = .index number ∧ number.toNat < count
  items : ∀ items, ofTable table = .array items → items.length = table.size ∧
    ∀ (number : UInt64) (value : Value), table.get? (.index number) = some value →
      items[number.toNat]? = some (ofValue value)
  members : (∀ items, ofTable table ≠ .array items) →
    ∃ members, ofTable table = .object members ∧ members.length = table.size ∧
      (members.map Prod.fst).Nodup ∧
      ∀ name node, (name, node) ∈ members ↔
        ∃ key value, key.written = name ∧ table.get? key = some value ∧ ofValue value = node

theorem length_entriesOf (table : Table) : (entriesOf table).length = table.size := by
  rw [entriesOf_eq, List.length_map, Table.size]

theorem exists_array_iff {table : Table} (sorted : table.Sorted) :
    (∃ items, ofTable table = .array items) ↔
      ∃ count : Nat, ∀ key, (∃ value, table.get? key = some value) ↔
        ∃ number : UInt64, key = .index number ∧ number.toNat < count := by
  by_cases empty : table = .empty
  · subst empty
    exact ⟨fun _ => ⟨0, by simp⟩, fun _ => ⟨[], rfl⟩⟩
  · rw [isArray_ofTable_iff sorted empty]
    constructor
    · rintro ⟨count, -, counted⟩
      exact ⟨count, counted⟩
    · rintro ⟨count, counted⟩
      obtain ⟨entry, member⟩ := List.exists_mem_of_ne_nil _ (Table.entries_ne_nil empty)
      obtain ⟨number, -, below⟩ := (counted entry.1).mp ⟨_, Table.get?_of_mem sorted member⟩
      exact ⟨count, Nat.zero_lt_of_lt below, counted⟩

theorem length_of_array {table : Table} {items : List Json}
    (array : ofTable table = .array items) : items.length = table.size := by
  obtain ⟨-, rfl⟩ := ofTable_eq_array_iff.mp array
  rw [List.length_map, length_entriesOf]

theorem getElem?_of_array {table : Table} (sorted : table.Sorted) {items : List Json}
    (array : ofTable table = .array items) {number : UInt64} {value : Value}
    (held : table.get? (.index number) = some value) :
    items[number.toNat]? = some (ofValue value) := by
  obtain ⟨sequence, rfl⟩ := ofTable_eq_array_iff.mp array
  have member : Key.index number ∈ (entriesOf table).map Prod.fst :=
    List.mem_map_of_mem ((mem_entriesOf_iff sorted).mpr ⟨value, held, rfl⟩)
  have there := getElem?_of_isSequence sequence member
  rw [List.getElem?_map, Option.map_eq_some_iff] at there
  obtain ⟨⟨_, node⟩, placed, rfl⟩ := there
  obtain ⟨other, otherHeld, rfl⟩ := (mem_entriesOf_iff sorted).mp (List.mem_of_getElem? placed)
  obtain rfl := Option.some.inj (held.symm.trans otherHeld)
  rw [List.getElem?_map, placed, Option.map_some]

/-- Where a table is no array, the entries are the members. -/
theorem exists_members {table : Table} (sorted : table.Sorted) (proper : table.Proper)
    (noArray : ∀ items, ofTable table ≠ .array items) :
    ∃ members, ofTable table = .object members ∧
      members.Perm ((entriesOf table).map named) ∧ (members.map Prod.fst).Nodup := by
  have distinct := nodup_written (readable_of_proper proper) (ordered_of_sorted sorted)
  have perm := sortedMembers_perm distinct
  rw [ofTable, ofEntries] at noArray ⊢
  split at noArray
  next => exact absurd rfl (noArray _)
  next unordered =>
    rw [if_neg unordered]
    refine ⟨_, rfl, perm, ?_⟩
    rw [(perm.map Prod.fst).nodup_iff, List.map_map]
    rwa [List.map_map] at distinct

theorem mem_named_iff {table : Table} (sorted : table.Sorted) {name : Text} {node : Json} :
    (name, node) ∈ (entriesOf table).map named ↔
      ∃ key value, key.written = name ∧ table.get? key = some value ∧ ofValue value = node := by
  rw [List.mem_map]
  constructor
  · rintro ⟨⟨key, _⟩, member, same⟩
    obtain ⟨rfl, rfl⟩ := Prod.mk.inj same
    obtain ⟨value, held, node⟩ := (mem_entriesOf_iff sorted).mp member
    exact ⟨key, value, rfl, held, node⟩
  · rintro ⟨key, value, rfl, held, rfl⟩
    exact ⟨(key, ofValue value), (mem_entriesOf_iff sorted).mpr ⟨value, held, rfl⟩, rfl⟩

theorem faithful_ofTable {table : Table} (sorted : table.Sorted) (proper : table.Proper) :
    Faithful table := by
  constructor
  case array_iff => exact exists_array_iff sorted
  case items =>
    intro items array
    exact ⟨length_of_array array, fun _ _ held => getElem?_of_array sorted array held⟩
  case members =>
    intro noArray
    obtain ⟨members, object, perm, distinct⟩ := exists_members sorted proper noArray
    refine ⟨members, object, ?_, distinct, fun name node => ?_⟩
    · rw [perm.length_eq, List.length_map, length_entriesOf]
    · rw [perm.mem_iff, mem_named_iff sorted]

theorem eq_of_isSequence {keys others : List Key} (sequence : isSequence keys = true)
    (otherSequence : isSequence others = true) (length : keys.length = others.length) :
    keys = others := by
  rw [isSequence, decide_eq_true_iff] at sequence otherSequence
  rw [sequence, otherSequence, length]

-- Where the keys read back, the members tell which entries they came from.
theorem map_named_injective {entries others : List (Key × Json)}
    (readable : ∀ key ∈ entries.map Prod.fst, Key.ofText key.written = key)
    (otherReadable : ∀ key ∈ others.map Prod.fst, Key.ofText key.written = key)
    (perm : (entries.map named).Perm (others.map named)) : entries.Perm others := by
  have back {entries : List (Key × Json)}
      (readable : ∀ key ∈ entries.map Prod.fst, Key.ofText key.written = key) :
      (entries.map named).map (fun member => (Key.ofText member.1, member.2)) = entries := by
    have same : ∀ entry ∈ entries,
        ((fun member => (Key.ofText member.1, member.2)) ∘ named) entry = id entry := by
      intro entry member
      exact congrArg (·, entry.2) (readable entry.1 (List.mem_map_of_mem member))
    rw [List.map_map, List.map_congr_left same, List.map_id]
  rw [← back readable, ← back otherReadable]
  exact perm.map _

theorem ofEntries_injective {entries others : List (Key × Json)}
    (readable : ∀ key ∈ entries.map Prod.fst, Key.ofText key.written = key)
    (ordered : (entries.map Prod.fst).Pairwise (· < ·))
    (otherReadable : ∀ key ∈ others.map Prod.fst, Key.ofText key.written = key)
    (otherOrdered : (others.map Prod.fst).Pairwise (· < ·))
    (same : ofEntries entries = ofEntries others) : entries = others := by
  rw [ofEntries, ofEntries] at same
  split at same
  next sequence =>
    split at same
    next otherSequence =>
      have values := Json.array.inj same
      have length : (entries.map Prod.fst).length = (others.map Prod.fst).length := by
        simpa using congrArg List.length values
      have keys := eq_of_isSequence sequence otherSequence length
      rw [List.zip_of_prod keys values]
      exact (List.zip_of_prod rfl rfl).symm
    next => simp at same
  next =>
    split at same
    next => simp at same
    next =>
      have members := Json.object.inj same
      have perm := sortedMembers_perm (nodup_written readable ordered)
      have otherPerm := sortedMembers_perm (nodup_written otherReadable otherOrdered)
      rw [members] at perm
      have entriesPerm := map_named_injective readable otherReadable (perm.symm.trans otherPerm)
      apply entriesPerm.eq_of_pairwise _ (List.pairwise_map.mp ordered)
        (List.pairwise_map.mp otherOrdered)
      intro first second _ _ before after
      exact absurd (Key.lt_trans before after) (Key.lt_irrefl _)

def scalar? : Json → Option Scalar
  | .string content => some (.text content)
  | .integer number => some (.integer number)
  | .float number => some (.float number)
  | _ => none

theorem scalar?_ofScalar {content : Scalar} (finite : content.Finite) :
    scalar? (ofScalar content) = some content := by
  cases content with
  | text | integer => rfl
  | float number =>
      rw [ofScalar, if_pos (show number.isFinite = true from finite)]
      rfl

theorem scalar?_ofTable (table : Table) : scalar? (ofTable table) = none := by
  rw [ofTable, ofEntries]
  split <;> rfl

theorem ofScalar_injective {content other : Scalar} (finite : content.Finite)
    (otherFinite : other.Finite) (same : ofScalar content = ofScalar other) : content = other := by
  have read := congrArg scalar? same
  rw [scalar?_ofScalar finite, scalar?_ofScalar otherFinite] at read
  exact Option.some.inj read

theorem ofScalar_ne_ofTable {content : Scalar} (finite : content.Finite) (table : Table) :
    ofScalar content ≠ ofTable table := by
  intro same
  have read := congrArg scalar? same
  simp [scalar?_ofScalar finite, scalar?_ofTable] at read

theorem entries_eq_of_ofTable {table other : Table} (sorted : table.Sorted)
    (proper : table.Proper) (otherSorted : other.Sorted) (otherProper : other.Proper)
    (same : ofTable table = ofTable other) : entriesOf table = entriesOf other :=
  ofEntries_injective (readable_of_proper proper) (ordered_of_sorted sorted)
    (readable_of_proper otherProper) (ordered_of_sorted otherSorted) same

/-- Entry by entry, a table can be told from its entries. -/
theorem entriesOf_injective {table other : Table} (sorted : table.Sorted) (proper : table.Proper)
    (otherSorted : other.Sorted) (otherProper : other.Proper)
    (same : entriesOf table = entriesOf other) : table = other := by
  induction table generalizing other with
  | empty =>
      cases other with
      | empty => rfl
      | leaf | branch => simp [entriesOf] at same
  | leaf key content rest ih =>
      obtain ⟨⟨-, finite⟩, restProper⟩ := proper
      cases other with
      | empty => simp [entriesOf] at same
      | leaf otherKey otherContent otherRest =>
          obtain ⟨⟨-, otherFinite⟩, otherRestProper⟩ := otherProper
          obtain ⟨first, further⟩ := List.cons.inj same
          obtain ⟨rfl, value⟩ := Prod.mk.inj first
          rw [ofScalar_injective finite otherFinite value,
            ih sorted.2 restProper otherSorted.2 otherRestProper further]
      | branch otherKey inner otherRest =>
          have value := (Prod.mk.inj (List.cons.inj same).1).2
          exact absurd value (ofScalar_ne_ofTable finite inner)
  | branch key inner rest innerIh restIh =>
      obtain ⟨⟨-, innerProper⟩, restProper⟩ := proper
      obtain ⟨-, innerSorted, restSorted⟩ := sorted
      cases other with
      | empty => simp [entriesOf] at same
      | leaf otherKey content otherRest =>
          have value := (Prod.mk.inj (List.cons.inj same).1).2
          exact absurd value.symm (ofScalar_ne_ofTable otherProper.1.2 inner)
      | branch otherKey otherInner otherRest =>
          obtain ⟨⟨-, otherInnerProper⟩, otherRestProper⟩ := otherProper
          obtain ⟨-, otherInnerSorted, otherRestSorted⟩ := otherSorted
          obtain ⟨first, further⟩ := List.cons.inj same
          obtain ⟨rfl, value⟩ := Prod.mk.inj first
          have inside := entries_eq_of_ofTable innerSorted innerProper otherInnerSorted
            otherInnerProper value
          rw [innerIh innerSorted innerProper otherInnerSorted otherInnerProper inside,
            restIh restSorted restProper otherRestSorted otherRestProper further]

/-- The JSON of a table has an item or a member for each entry, at every level, and no other
table has the same JSON. -/
theorem ofTable_faithful {table : Table} (sorted : table.Sorted) (proper : table.Proper) :
    (∀ keys inner, (Value.table table).descend? keys = some (.table inner) → Faithful inner) ∧
    ∀ other : Table, other.Sorted → other.Proper → ofTable other = ofTable table →
      other = table := by
  constructor
  · intro keys inner reached
    have wholeSorted : (Value.table table).Sorted := sorted
    have wholeProper : (Value.table table).Proper := proper
    have innerSorted := Value.descend?_keeps Value.sorted_child? wholeSorted reached
    have innerProper := Value.descend?_keeps Value.proper_child? wholeProper reached
    exact faithful_ofTable innerSorted innerProper
  · intro other otherSorted otherProper same
    have entries := entries_eq_of_ofTable otherSorted otherProper sorted proper same
    exact entriesOf_injective otherSorted otherProper sorted proper entries

/-- A table with a number beyond 64 bits for a name, an index left out, and an array. -/
def mixedTable (last : Scalar) : Table :=
  .leaf (.index 7) (.text ['x']) <|
    .leaf (.name "18446744073709551616".toList) (.integer 1) <|
      .branch (.name ['a'])
        (.leaf (.index 0) (.text []) <| .leaf (.index 1) last .empty)
        .empty

theorem mixedTable_sorted (last : Scalar) : (mixedTable last).Sorted := by
  have first : Key.index 7 < .name "18446744073709551616".toList ∧ Key.index 7 < .name ['a'] := by
    decide
  have second : Key.name "18446744073709551616".toList < .name ['a'] := by decide
  have inside : Key.index 0 < .index 1 := by decide
  simpa [mixedTable, Table.Sorted, Table.Above, Table.entries] using ⟨first, second, inside⟩

theorem mixedTable_proper {last : Scalar} (finite : last.Finite) : (mixedTable last).Proper := by
  have number : (Key.name "18446744073709551616".toList).Made :=
    Key.made_iff.mpr (by decide +kernel)
  have letter : (Key.name ['a']).Made := Key.made_iff.mpr (by decide +kernel)
  exact ⟨⟨.number 7, trivial⟩, ⟨number, trivial⟩,
    ⟨letter, ⟨.number 0, trivial⟩, ⟨.number 1, finite⟩, trivial⟩, trivial⟩

/-- No key takes the place of another, and an integer stays apart from a float of its value. -/
theorem mixedTable_faithful :
    (mixedTable (.float ⟨0x3FF0000000000000⟩)).Sorted ∧
    (mixedTable (.float ⟨0x3FF0000000000000⟩)).Proper ∧
    (∃ members, ofTable (mixedTable (.float ⟨0x3FF0000000000000⟩)) = .object members ∧
      members.length = 3 ∧ (members.map Prod.fst).Nodup) ∧
    ofTable (mixedTable (.integer 1)) ≠ ofTable (mixedTable (.float ⟨0x3FF0000000000000⟩)) := by
  have sorted := mixedTable_sorted
  have proper : (mixedTable (.float ⟨0x3FF0000000000000⟩)).Proper :=
    mixedTable_proper (show Binary64.isFinite _ = true by decide +kernel)
  obtain ⟨faithful, injective⟩ := ofTable_faithful (sorted _) proper
  have unordered : ∀ items, ofTable (mixedTable (.float ⟨0x3FF0000000000000⟩)) ≠ .array items := by
    intro items same
    rw [ofTable, ofEntries, if_neg (by decide +kernel)] at same
    simp at same
  obtain ⟨members, object, length, distinct, -⟩ := (faithful [] _ rfl).members unordered
  refine ⟨sorted _, proper, ⟨members, object, length, distinct⟩, fun same => ?_⟩
  have one : Scalar.Finite (.integer 1) := trivial
  have equal := injective _ (sorted _) (mixedTable_proper one) same
  simp [mixedTable] at equal

end Json
end Stencil
