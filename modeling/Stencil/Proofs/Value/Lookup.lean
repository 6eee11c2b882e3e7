import Stencil.Value.Table

/-!
Looking up and setting in a table. Keys are in a strict order in which any two
differ or agree, so setting one key leaves every other as it was, and a sorted
table stays sorted.
-/
namespace Stencil
namespace Key

theorem lt_irrefl (key : Key) : ¬ key < key := by
  cases key with
  | index number => exact Nat.lt_irrefl number.toNat
  | name content => exact List.lt_irrefl content

theorem lt_trans {first second third : Key} (before : first < second) (after : second < third) :
    first < third := by
  cases first with
  | index a =>
      cases second with
      | index b =>
          cases third with
          | index c => exact Nat.lt_trans before after
          | name c => trivial
      | name b =>
          cases third with
          | index c => exact after.elim
          | name c => trivial
  | name a =>
      cases second with
      | index b => exact before.elim
      | name b =>
          cases third with
          | index c => exact after.elim
          | name c => exact List.lt_trans before after

theorem eq_or_lt_of_not_lt {first second : Key} (notBefore : ¬ first < second) :
    second = first ∨ second < first := by
  cases first with
  | index a =>
      cases second with
      | index b =>
          rcases Nat.lt_or_ge b.toNat a.toNat with less | more
          · exact Or.inr less
          · have same : b.toNat = a.toNat := Nat.le_antisymm (Nat.not_lt.mp notBefore) more
            exact Or.inl (congrArg index (UInt64.toNat_inj.mp same))
      | name b => exact absurd trivial notBefore
  | name a =>
      cases second with
      | index b => exact Or.inr trivial
      | name b =>
          by_cases less : b < a
          · exact Or.inr less
          · exact Or.inl (congrArg name (List.le_antisymm notBefore less))

theorem ne_of_lt {first second : Key} (before : first < second) : first ≠ second := by
  rintro rfl
  exact lt_irrefl first before

end Key

def Value.Sorted : Value → Prop
  | .scalar _ => True
  | .table content => content.Sorted

namespace Table

-- A leaf and a branch differ only in what stands under the key.
theorem cons_induction {motive : Table → Prop} (empty : motive .empty)
    (cons : ∀ key value rest, motive rest → motive (cons key value rest)) (table : Table) :
    motive table := by
  induction table with
  | empty => exact empty
  | leaf key content rest ih => exact cons key (.scalar content) rest ih
  | branch key inner rest _ ih => exact cons key (.table inner) rest ih

theorem cons_ne_empty (key : Key) (value : Value) (rest : Table) :
    cons key value rest ≠ .empty := by
  cases value <;> simp [cons]

@[simp] theorem entries_cons (key : Key) (value : Value) (rest : Table) :
    (cons key value rest).entries = (key, value) :: rest.entries := by
  cases value <;> rfl

theorem entries_ne_nil {table : Table} (nonempty : table ≠ .empty) : table.entries ≠ [] := by
  cases table with
  | empty => exact absurd rfl nonempty
  | leaf | branch => simp [entries]

theorem above_cons_iff {lowest key : Key} {value : Value} {rest : Table} :
    (cons key value rest).Above lowest ↔ lowest < key ∧ rest.Above lowest := by
  simp [Above]

theorem sorted_cons_iff {key : Key} {value : Value} {rest : Table} :
    (cons key value rest).Sorted ↔ rest.Above key ∧ value.Sorted ∧ rest.Sorted := by
  cases value <;> simp [cons, Sorted, Value.Sorted]

@[simp] theorem get?_empty (key : Key) : Table.empty.get? key = none := rfl

theorem get?_cons (key other : Key) (value : Value) (rest : Table) :
    (cons other value rest).get? key =
      if key = other then some value else if key < other then none else rest.get? key := by
  cases value <;> rfl

theorem set_cons (key other : Key) (value held : Value) (rest : Table) :
    (cons other held rest).set key value =
      if key = other then cons key value rest
      else if key < other then cons key value (cons other held rest)
      else cons other held (rest.set key value) := by
  cases held <;> rfl

theorem set_ne_empty (table : Table) (key : Key) (value : Value) :
    table.set key value ≠ .empty := by
  induction table using cons_induction with
  | empty => exact cons_ne_empty key value .empty
  | cons other held rest ih =>
      rw [set_cons]
      split
      · exact cons_ne_empty _ _ _
      · split <;> exact cons_ne_empty _ _ _

@[simp] theorem get?_set_self (table : Table) (key : Key) (value : Value) :
    (table.set key value).get? key = some value := by
  induction table using cons_induction with
  | empty => simp [set, get?_cons]
  | cons other held rest ih =>
      rw [set_cons]
      by_cases same : key = other
      · simp [same, get?_cons]
      by_cases before : key < other
      · simp [same, before, get?_cons]
      · simpa [same, before, get?_cons] using ih

-- Setting one key leaves every other as it was, in any table.
theorem get?_set_ne {key other : Key} (different : other ≠ key) (table : Table) (value : Value) :
    (table.set key value).get? other = table.get? other := by
  induction table using cons_induction with
  | empty => simp [set, get?_cons, different]
  | cons third held rest ih =>
      rw [set_cons]
      by_cases same : key = third
      · subst same
        simp [get?_cons, different]
      by_cases before : key < third
      · simp only [same, before, ↓reduceIte, get?_cons, different]
        -- A key in front of the new one was never looked for behind it.
        by_cases earlier : other < key
        · have first := Key.lt_trans earlier before
          simp [earlier, first, Key.ne_of_lt first]
        · simp [earlier]
      · simp only [same, before, ↓reduceIte, get?_cons, ih]

-- Setting what is there changes nothing.
theorem set_of_get? {table : Table} {key : Key} {value : Value}
    (held : table.get? key = some value) : table.set key value = table := by
  induction table using cons_induction with
  | empty => simp at held
  | cons other content rest ih =>
      rw [get?_cons] at held
      rw [set_cons]
      by_cases same : key = other
      · obtain rfl : content = value := by simpa [same] using held
        simp [same]
      by_cases before : key < other
      · simp [same, before] at held
      · rw [if_neg same, if_neg before] at held ⊢
        rw [ih held]

theorem mem_set {table : Table} {key : Key} {value : Value} {entry : Key × Value}
    (member : entry ∈ (table.set key value).entries) :
    entry = (key, value) ∨ entry ∈ table.entries := by
  induction table using cons_induction with
  | empty => simpa [set, entries] using member
  | cons other held rest ih =>
      rw [set_cons] at member
      rw [entries_cons, List.mem_cons]
      by_cases same : key = other
      · rw [if_pos same, entries_cons, List.mem_cons] at member
        exact member.imp id Or.inr
      rw [if_neg same] at member
      by_cases before : key < other
      · simpa [before] using member
      · rw [if_neg before, entries_cons, List.mem_cons] at member
        rcases member with first | later
        · exact Or.inr (Or.inl first)
        · exact (ih later).imp id Or.inr

theorem above_set {lowest key : Key} {table : Table} (above : table.Above lowest)
    (before : lowest < key) (value : Value) : (table.set key value).Above lowest := by
  intro entry member
  rcases mem_set member with rfl | old
  · exact before
  · exact above entry old

theorem above_of_lt {lowest key : Key} {table : Table} (before : lowest < key)
    (above : table.Above key) : table.Above lowest :=
  fun entry member => Key.lt_trans before (above entry member)

theorem sorted_set {table : Table} (sorted : table.Sorted) (key : Key) (value : Value)
    (inside : value.Sorted) : (table.set key value).Sorted := by
  induction table using cons_induction with
  | empty => exact sorted_cons_iff.mpr ⟨by simp [Above, entries], inside, trivial⟩
  | cons other held rest ih =>
      rcases sorted_cons_iff.mp sorted with ⟨above, heldSorted, restSorted⟩
      rw [set_cons]
      by_cases same : key = other
      · subst same
        simpa using sorted_cons_iff.mpr ⟨above, inside, restSorted⟩
      by_cases before : key < other
      · simp only [same, before, ↓reduceIte]
        have below : (cons other held rest).Above key :=
          above_cons_iff.mpr ⟨before, above_of_lt before above⟩
        exact sorted_cons_iff.mpr ⟨below, inside, sorted⟩
      · simp only [same, before, ↓reduceIte]
        rcases Key.eq_or_lt_of_not_lt before with equal | after
        · exact absurd equal.symm same
        · exact sorted_cons_iff.mpr ⟨above_set above after value, heldSorted, ih restSorted⟩

theorem mem_of_get? {table : Table} {key : Key} {value : Value}
    (held : table.get? key = some value) : (key, value) ∈ table.entries := by
  induction table using cons_induction with
  | empty => simp at held
  | cons other content rest ih =>
      rw [get?_cons] at held
      rw [entries_cons]
      by_cases same : key = other
      · obtain rfl : content = value := by simpa [same] using held
        simp [same]
      by_cases before : key < other
      · simp [same, before] at held
      · rw [if_neg same, if_neg before] at held
        exact List.mem_cons_of_mem _ (ih held)

-- In front of a sorted rest, a key hides nothing of it.
theorem get?_cons_of_above {key other : Key} {rest : Table} {value : Value}
    (above : rest.Above other) (held : rest.get? key = some value) (content : Value) :
    (cons other content rest).get? key = some value := by
  have before : other < key := above _ (mem_of_get? held)
  have notBefore : ¬ key < other := fun after => Key.lt_irrefl _ (Key.lt_trans before after)
  rw [get?_cons, if_neg (Key.ne_of_lt before).symm, if_neg notBefore, held]

theorem get?_of_mem {table : Table} (sorted : table.Sorted) {key : Key} {value : Value}
    (member : (key, value) ∈ table.entries) : table.get? key = some value := by
  induction table using cons_induction with
  | empty => simp [entries] at member
  | cons other content rest ih =>
      rcases sorted_cons_iff.mp sorted with ⟨above, -, restSorted⟩
      rw [entries_cons, List.mem_cons] at member
      rcases member with same | later
      · obtain ⟨rfl, rfl⟩ := Prod.mk.inj same
        simp [get?_cons]
      · exact get?_cons_of_above above (ih restSorted later) content

-- In a sorted table looking up and listing tell the same.
theorem get?_eq_some_iff_mem {table : Table} (sorted : table.Sorted) {key : Key} {value : Value} :
    table.get? key = some value ↔ (key, value) ∈ table.entries :=
  ⟨mem_of_get?, get?_of_mem sorted⟩

theorem pairwise_keys {table : Table} (sorted : table.Sorted) :
    (table.entries.map Prod.fst).Pairwise (· < ·) := by
  induction table using cons_induction with
  | empty => simp [entries]
  | cons key value rest ih =>
      rcases sorted_cons_iff.mp sorted with ⟨above, -, restSorted⟩
      rw [entries_cons, List.map_cons, List.pairwise_cons]
      refine ⟨fun other member => ?_, ih restSorted⟩
      obtain ⟨entry, among, rfl⟩ := List.mem_map.mp member
      exact above entry among

theorem sorted_entries {table : Table} (sorted : table.Sorted) :
    ∀ entry ∈ table.entries, entry.2.Sorted := by
  induction table using cons_induction with
  | empty => simp [entries]
  | cons key value rest ih =>
      rcases sorted_cons_iff.mp sorted with ⟨-, valueSorted, restSorted⟩
      simpa using ⟨valueSorted, fun key value => ih restSorted (key, value)⟩

theorem sorted_get? {table : Table} (sorted : table.Sorted) {key : Key} {value : Value}
    (held : table.get? key = some value) : value.Sorted :=
  sorted_entries sorted _ (mem_of_get? held)

end Table
end Stencil
