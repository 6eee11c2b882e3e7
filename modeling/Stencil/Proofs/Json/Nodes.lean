import Stencil.Proofs.Json.Members
import Stencil.Proofs.Template.Paths
import Stencil.Proofs.Value.Placement

/-!
The nodes of a JSON tree and the keys that lead to them. The tree of a table has exactly
the nodes that can be descended to in the table, and a table's node is an array exactly
if its keys are the indexes from zero up to some number.
-/
namespace Stencil
namespace Json

def IsValue : Json → Prop
  | .string _ | .integer _ | .float _ => True
  | _ => False

/-- A node of the tree and the keys that lead to it. An item of an array stands at its
position, a member of an object at the key that its name spells. -/
inductive At : Json → List Key → Json → Prop
  | root (tree : Json) : At tree [] tree
  | item {items : List Json} {position : Nat} {item node : Json} {keys : List Key}
      (held : items[position]? = some item) (below : At item keys node) :
      At (.array items) (.index (UInt64.ofNat position) :: keys) node
  | member {members : List (Text × Json)} {name : Text} {value node : Json} {keys : List Key}
      (held : (name, value) ∈ members) (below : At value keys node) :
      At (.object members) (Key.ofText name :: keys) node

/-- Exactly the indexes from zero up to some number satisfy the condition. -/
def CountsUp (among : Key → Prop) : Prop :=
  ∃ count : Nat, 0 < count ∧
    ∀ key, among key ↔ ∃ number : UInt64, key = .index number ∧ number.toNat < count

def ofValue : Value → Json
  | .scalar content => ofScalar content
  | .table content => ofTable content

theorem entriesOf_eq (table : Table) :
    entriesOf table = table.entries.map fun entry => (entry.1, ofValue entry.2) := by
  induction table with
  | empty => rfl
  | leaf key content rest ih => rw [entriesOf, ih]; rfl
  | branch key inner rest _ ih => rw [entriesOf, ih]; rfl

theorem keys_entriesOf (table : Table) :
    (entriesOf table).map Prod.fst = table.entries.map Prod.fst := by
  rw [entriesOf_eq, List.map_map]
  rfl

theorem at_nil_iff {tree node : Json} : At tree [] node ↔ node = tree := by
  constructor
  · intro reached
    cases reached
    rfl
  · rintro rfl
    exact .root node

theorem isSequence_iff_getElem? (keys : List Key) : isSequence keys = true ↔
    ∀ position key, keys[position]? = some key → key = Key.index (UInt64.ofNat position) := by
  rw [isSequence, decide_eq_true_iff]
  constructor
  · intro same position key held
    rw [same] at held
    simp only [List.getElem?_map, Option.map_eq_some_iff] at held
    obtain ⟨_, inRange, rfl⟩ := held
    obtain ⟨_, rfl⟩ := List.getElem?_eq_some_iff.mp inRange
    rw [List.getElem_range]
  · intro counted
    apply List.ext_getElem?
    intro position
    cases held : keys[position]? with
    | none => simp [List.getElem?_eq_none_iff.mp held]
    | some key =>
        have inside : position < keys.length := (List.getElem?_eq_some_iff.mp held).1
        simp [inside, counted position key held]

/-- One step into the tree of some entries leads to an entry with that key. -/
theorem at_ofEntries_cons_iff {entries : List (Key × Json)}
    (readable : ∀ key ∈ entries.map Prod.fst, Key.ofText key.written = key)
    (ordered : (entries.map Prod.fst).Pairwise (· < ·)) {key : Key}
    {keys : List Key} {node : Json} :
    At (ofEntries entries) (key :: keys) node ↔
      ∃ value, (key, value) ∈ entries ∧ At value keys node := by
  have members := sortedMembers_perm (nodup_written readable ordered)
  rw [ofEntries]
  split
  next sequence =>
    have counted := (isSequence_iff_getElem? _).mp sequence
    constructor
    · intro reached
      cases reached with
      | @item _ position item _ _ held below =>
          rw [List.getElem?_map, Option.map_eq_some_iff] at held
          obtain ⟨⟨first, value⟩, held, rfl⟩ := held
          have number : first = Key.index (UInt64.ofNat position) :=
            counted position first (by simp [held])
          exact ⟨value, number ▸ List.mem_of_getElem? held, below⟩
    · rintro ⟨value, member, below⟩
      obtain ⟨position, held⟩ := List.getElem?_of_mem member
      obtain rfl := counted position key (by simp [held])
      exact .item (by simp [held]) below
  next =>
    constructor
    · intro reached
      cases reached with
      | @member _ name value _ _ held below =>
          obtain ⟨⟨first, value⟩, member, same⟩ := List.mem_map.mp (members.mem_iff.mp held)
          obtain ⟨rfl, rfl⟩ := Prod.mk.inj same
          rw [readable _ (List.mem_map_of_mem member)]
          exact ⟨value, member, below⟩
    · rintro ⟨value, member, below⟩
      have held : named (key, value) ∈ sortedMembers entries :=
        members.mem_iff.mpr (List.mem_map_of_mem member)
      have reached := At.member held below
      rwa [readable _ (List.mem_map_of_mem member)] at reached

/-- All keys that lead anywhere below the value read back from their text. -/
def Readable (value : Value) : Prop :=
  ∀ keys found, value.descend? keys = some found → ∀ key ∈ keys, Key.ofText key.written = key

theorem Readable.child {value inner : Value} {key : Key} (readable : Readable value)
    (held : value.child? key = some inner) : Readable inner := by
  intro keys found below other member
  have whole := Value.descend?_cons_eq_some_iff.mpr ⟨inner, held, below⟩
  exact readable (key :: keys) found whole other (List.mem_cons_of_mem key member)

theorem Readable.key {value inner : Value} {key : Key} (readable : Readable value)
    (held : value.child? key = some inner) : Key.ofText key.written = key := by
  have whole : value.descend? [key] = some inner :=
    Value.descend?_cons_eq_some_iff.mpr ⟨inner, held, rfl⟩
  exact readable [key] inner whole key List.mem_cons_self

/-- One step into the tree of a table is one step into the table. -/
theorem at_ofTable_cons_iff {table : Table} (sorted : table.Sorted)
    (readable : Readable (.table table)) {key : Key} {keys : List Key} {node : Json} :
    At (ofTable table) (key :: keys) node ↔
      ∃ inner, table.get? key = some inner ∧ At (ofValue inner) keys node := by
  have held {entry : Key × Value} (member : entry ∈ table.entries) :
      (Value.table table).child? entry.1 = some entry.2 := Table.get?_of_mem sorted member
  rw [ofTable, at_ofEntries_cons_iff]
  · rw [entriesOf_eq]
    constructor
    · rintro ⟨_, member, below⟩
      obtain ⟨⟨_, inner⟩, among, same⟩ := List.mem_map.mp member
      obtain ⟨rfl, rfl⟩ := Prod.mk.inj same
      exact ⟨inner, held among, below⟩
    · rintro ⟨inner, found, below⟩
      exact ⟨ofValue inner, List.mem_map.mpr ⟨_, Table.mem_of_get? found, rfl⟩, below⟩
  · rw [keys_entriesOf]
    intro key member
    obtain ⟨entry, among, rfl⟩ := List.mem_map.mp member
    exact readable.key (held among)
  · rw [keys_entriesOf]
    exact Table.pairwise_keys sorted

theorem not_at_ofScalar_cons (content : Scalar) (key : Key) (keys : List Key) (node : Json) :
    ¬ At (ofScalar content) (key :: keys) node := by
  intro reached
  cases content with
  | text | integer => cases reached
  | float number =>
      rw [ofScalar] at reached
      split at reached <;> cases reached

/-- The nodes of the tree of a value are those that can be descended to. -/
theorem at_ofValue_iff {value : Value} (sorted : value.Sorted) (readable : Readable value)
    {keys : List Key} {node : Json} :
    At (ofValue value) keys node ↔
      ∃ found, value.descend? keys = some found ∧ node = ofValue found := by
  induction keys generalizing value with
  | nil => simp [at_nil_iff, Value.descend?]
  | cons key rest ih =>
      simp only [Value.descend?_cons_eq_some_iff]
      cases value with
      | scalar content =>
          simp [ofValue, not_at_ofScalar_cons, Value.child?]
      | table content =>
          rw [ofValue, at_ofTable_cons_iff sorted readable]
          constructor
          · rintro ⟨inner, held, below⟩
            rw [ih (Table.sorted_get? sorted held) (readable.child held)] at below
            obtain ⟨found, onward, same⟩ := below
            exact ⟨found, ⟨inner, held, onward⟩, same⟩
          · rintro ⟨found, ⟨inner, held, onward⟩, same⟩
            refine ⟨inner, held, ?_⟩
            rw [ih (Table.sorted_get? sorted held) (readable.child held)]
            exact ⟨found, onward, same⟩

def Spans (keys : List Key) (low high : Nat) : Prop :=
  ∀ key, key ∈ keys ↔
    ∃ number : UInt64, key = .index number ∧ low ≤ number.toNat ∧ number.toNat < high

section
variable {first : Key} {rest : List Key} {low high : Nat}

-- The least index comes first: there is nothing that it could stand behind.
theorem Spans.head (spans : Spans (first :: rest) low high) (before : ∀ key ∈ rest, first < key) :
    ∃ number : UInt64, first = .index number ∧ number.toNat = low := by
  obtain ⟨number, rfl, above, below⟩ := (spans first).mp List.mem_cons_self
  refine ⟨number, rfl, Classical.byContradiction fun different => ?_⟩
  have further : low < number.toNat := by omega
  have small : (UInt64.ofNat low).toNat = low :=
    UInt64.toNat_ofNat_of_lt' (Nat.lt_trans further number.toNat_lt_size)
  have among : Key.index (UInt64.ofNat low) ∈ Key.index number :: rest :=
    (spans _).mpr ⟨_, rfl, by omega, by omega⟩
  rcases List.mem_cons.mp among with same | later
  · obtain rfl := Key.index.inj same
    exact different small
  · have after : number.toNat < (UInt64.ofNat low).toNat := before _ later
    omega

-- The others are those from the next index on.
theorem Spans.tail (spans : Spans (first :: rest) low high) (before : ∀ key ∈ rest, first < key) :
    Spans rest (low + 1) high := by
  obtain ⟨number, rfl, least⟩ := spans.head before
  intro key
  constructor
  · intro later
    obtain ⟨other, rfl, -, within⟩ := (spans key).mp (List.mem_cons_of_mem _ later)
    have after : number.toNat < other.toNat := before _ later
    exact ⟨other, rfl, by omega, within⟩
  · rintro ⟨other, rfl, above, within⟩
    have among := (spans (.index other)).mpr ⟨other, rfl, by omega, within⟩
    rcases List.mem_cons.mp among with same | later
    · obtain rfl := Key.index.inj same
      omega
    · exact later

end

theorem Spans.index_of_ordered {keys : List Key} {low high : Nat} (spans : Spans keys low high)
    (ordered : keys.Pairwise (· < ·)) :
    ∀ position key, keys[position]? = some key →
      key = Key.index (UInt64.ofNat (low + position)) := by
  induction keys generalizing low with
  | nil => simp
  | cons first rest ih =>
      obtain ⟨before, restOrdered⟩ := List.pairwise_cons.mp ordered
      intro position key held
      cases position with
      | zero =>
          obtain ⟨number, rfl, least⟩ := spans.head before
          obtain rfl : Key.index number = key := by simpa using held
          rw [Nat.add_zero, ← least, UInt64.ofNat_toNat]
      | succ position =>
          rw [ih (spans.tail before) restOrdered position key (by simpa using held)]
          congr 2
          omega

/-- Ordered keys count up if they are exactly the indexes from zero up to some number. -/
theorem isSequence_iff_countsUp {keys : List Key} (nonempty : keys ≠ [])
    (ordered : keys.Pairwise (· < ·)) : isSequence keys = true ↔ CountsUp (· ∈ keys) := by
  rw [isSequence_iff_getElem?]
  constructor
  · intro counted
    refine ⟨keys.length, List.length_pos_iff.mpr nonempty, fun key => ?_⟩
    constructor
    · intro member
      obtain ⟨position, held⟩ := List.getElem?_of_mem member
      have inside : position < keys.length := (List.getElem?_eq_some_iff.mp held).1
      refine ⟨UInt64.ofNat position, counted position key held, ?_⟩
      rw [UInt64.toNat_ofNat']
      exact Nat.lt_of_le_of_lt (Nat.mod_le _ _) inside
    · rintro ⟨number, rfl, inside⟩
      have same := counted number.toNat _ (List.getElem?_eq_getElem inside)
      rw [UInt64.ofNat_toNat] at same
      exact same ▸ List.getElem_mem inside
  · rintro ⟨count, -, members⟩ position key held
    have spans : Spans keys 0 count := by
      simpa [Spans] using members
    rw [spans.index_of_ordered ordered position key held, Nat.zero_add]

theorem ofTable_eq_array_iff {table : Table} {items : List Json} :
    ofTable table = .array items ↔
      isSequence ((entriesOf table).map Prod.fst) = true ∧
        (entriesOf table).map Prod.snd = items := by
  rw [ofTable, ofEntries]
  split
  next sequence => simp [sequence]
  next unordered => simp [unordered]

theorem isArray_ofTable_iff {table : Table} (sorted : table.Sorted) (nonempty : table ≠ .empty) :
    (∃ items, ofTable table = .array items) ↔
      CountsUp fun key => ∃ inner, table.get? key = some inner := by
  have listed : table.entries.map Prod.fst ≠ [] := by
    simpa using Table.entries_ne_nil nonempty
  have among (key : Key) :
      key ∈ table.entries.map Prod.fst ↔ ∃ inner, table.get? key = some inner := by
    simp [Table.get?_eq_some_iff_mem sorted]
  simp only [← among]
  rw [← isSequence_iff_countsUp listed (Table.pairwise_keys sorted)]
  simp [ofTable_eq_array_iff, keys_entriesOf]

theorem ofScalar_ne_array (content : Scalar) (items : List Json) :
    ofScalar content ≠ .array items := by
  cases content with
  | text | integer => simp [ofScalar]
  | float number =>
      rw [ofScalar]
      split <;> simp

theorem ofTable_ne_null (table : Table) : ofTable table ≠ .null := by
  rw [ofTable, ofEntries]
  split <;> simp

theorem not_isValue_ofTable (table : Table) : ¬ (ofTable table).IsValue := by
  rw [ofTable, ofEntries]
  split <;> exact id

/-- A value's node is an array exactly if the keys below the value count up. -/
theorem isArray_ofValue_iff {value : Value} (sorted : value.Sorted)
    (nonempty : value ≠ .table .empty) :
    (∃ items, ofValue value = .array items) ↔
      CountsUp fun key => ∃ inner, value.child? key = some inner := by
  cases value with
  | table content =>
      exact isArray_ofTable_iff sorted fun empty => nonempty (congrArg Value.table empty)
  | scalar content =>
      constructor
      · rintro ⟨items, same⟩
        exact absurd same (ofScalar_ne_array content items)
      · rintro ⟨count, positive, members⟩
        obtain ⟨_, below⟩ := (members (.index 0)).mpr ⟨0, rfl, positive⟩
        simp [Value.child?] at below

end Json
end Stencil
