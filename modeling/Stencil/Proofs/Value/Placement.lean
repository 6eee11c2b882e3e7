import Stencil.Proofs.Template.Paths
import Stencil.Proofs.Value.Lookup

/-!
Placing a scalar at the end of a path, in any table. A scalar on the way blocks
the path, and then nothing changes. Otherwise the path leads to the scalar, the
paths on the way lead to tables, and every path that is neither on the way nor
goes on from the end leads where it led before.
-/
namespace Stencil

theorem Path.isParentOf_step_iff {front : Path} {key : Key} {rest : Path} :
    front.isParentOf (.step key rest) = true ↔
      front = .last key ∨ ∃ inner, front = .step key inner ∧ inner.isParentOf rest = true := by
  cases front with
  | last other => simp [isParentOf]
  | step other others =>
      simp only [isParentOf, Bool.and_eq_true, decide_eq_true_eq, reduceCtorEq, false_or,
        step.injEq]
      constructor
      · rintro ⟨rfl, parent⟩
        exact ⟨others, ⟨rfl, rfl⟩, parent⟩
      · rintro ⟨inner, ⟨rfl, rfl⟩, parent⟩
        exact ⟨rfl, parent⟩

theorem Path.not_isParentOf_last (front : Path) (key : Key) :
    ¬ front.isParentOf (.last key) = true := by
  cases front <;> simp [isParentOf]

namespace Value

theorem descend?_cons_eq_some_iff {value found : Value} {key : Key} {keys : List Key} :
    value.descend? (key :: keys) = some found ↔
      ∃ inner, value.child? key = some inner ∧ inner.descend? keys = some found := by
  rw [descend?, List.foldlM_cons]
  exact Option.bind_eq_some_iff

theorem descend?_append (value : Value) (keys more : List Key) :
    value.descend? (keys ++ more) = (value.descend? keys).bind fun inner => inner.descend? more :=
  List.foldlM_append

/-- What every step down keeps holds wherever one can descend to. -/
theorem descend?_keeps {Holds : Value → Prop}
    (step : ∀ {value inner : Value} {key : Key}, Holds value → value.child? key = some inner →
      Holds inner) {value found : Value} (holds : Holds value) {keys : List Key}
    (reached : value.descend? keys = some found) : Holds found := by
  induction keys generalizing value with
  | nil => exact Option.some.inj reached ▸ holds
  | cons key rest ih =>
      obtain ⟨inner, held, further⟩ := descend?_cons_eq_some_iff.mp reached
      exact ih (step holds held) further

end Value

namespace Table

def find? (table : Table) : Path → Option Value
  | .last key => table.get? key
  | .step key rest =>
      match table.get? key with
      | some (.table inner) => inner.find? rest
      | _ => none

-- Looking up a path is descending along its keys.
theorem descend?_segments (table : Table) (path : Path) :
    (Value.table table).descend? path.segments = table.find? path := by
  induction path generalizing table with
  | last key => simp [Value.descend?, Path.segments, Value.child?, find?]
  | step key rest ih =>
      have unfolded : (Value.table table).descend? (key :: rest.segments) =
          (table.get? key).bind fun value => value.descend? rest.segments := rfl
      rw [Path.segments, unfolded, find?]
      cases table.get? key with
      | none => rfl
      | some value =>
          cases value with
          | table inner => exact ih inner
          | scalar content => cases rest <;> rfl

/-- Where a descent ends at a scalar, the keys are those of a path. -/
theorem descend?_eq_scalar_iff {table : Table} {keys : List Key} {content : Scalar} :
    (Value.table table).descend? keys = some (.scalar content) ↔
      ∃ path : Path, path.segments = keys ∧ table.find? path = some (.scalar content) := by
  constructor
  · intro reached
    by_cases empty : keys = []
    · subst empty
      simp [Value.descend?] at reached
    · obtain ⟨path, rfl⟩ := Path.exists_segments empty
      exact ⟨path, rfl, by rwa [← descend?_segments]⟩
  · rintro ⟨path, rfl, found⟩
    rwa [descend?_segments]

@[simp] theorem find?_empty (path : Path) : Table.empty.find? path = none := by
  cases path <;> rfl

/-- The table in which a path goes on below a key: an empty one where there is
nothing yet, and none where a scalar stands. -/
def below? (table : Table) (key : Key) : Option Table :=
  match table.get? key with
  | none => some .empty
  | some (.table inner) => some inner
  | some (.scalar _) => none

theorem find?_step (table : Table) (key : Key) (rest : Path) :
    table.find? (.step key rest) = (table.below? key).bind fun inner => inner.find? rest := by
  rw [find?, below?]
  cases table.get? key with
  | none => simp
  | some value => cases value <;> rfl

theorem place_step (table : Table) (key : Key) (rest : Path) (content : Scalar) :
    table.place (.step key rest) content =
      match table.below? key with
      | some inner => table.set key (.table (inner.place rest content))
      | none => table := by
  rw [place, below?]
  cases table.get? key with
  | none => rfl
  | some value => cases value <;> rfl

@[simp] theorem below?_set_self (table : Table) (key : Key) (inner : Table) :
    (table.set key (.table inner)).below? key = some inner := by
  simp [below?]

theorem below?_set_ne {key other : Key} (different : other ≠ key) (table : Table)
    (value : Value) : (table.set key value).below? other = table.below? other := by
  simp [below?, get?_set_ne different]

def Blocked (table : Table) (path : Path) : Prop :=
  ∃ front content, front.isParentOf path = true ∧ table.find? front = some (.scalar content)

theorem not_blocked_last (table : Table) (key : Key) : ¬ table.Blocked (.last key) := by
  rintro ⟨front, _, parent, -⟩
  exact front.not_isParentOf_last key parent

theorem blocked_step_iff (table : Table) (key : Key) (rest : Path) :
    table.Blocked (.step key rest) ↔
      ∀ inner, table.below? key = some inner → inner.Blocked rest := by
  constructor
  · rintro ⟨front, content, parent, found⟩ inner below
    rcases Path.isParentOf_step_iff.mp parent with rfl | ⟨others, rfl, onward⟩
    · simp [find?] at found
      simp [below?, found] at below
    · rw [find?_step, below] at found
      exact ⟨others, content, onward, found⟩
  · intro onward
    -- Where the key is unused the path goes on in an empty table, which blocks nothing.
    cases held : table.get? key with
    | none =>
        rcases onward .empty (by simp [below?, held]) with ⟨front, content, -, found⟩
        simp at found
    | some value =>
        cases value with
        | scalar content =>
            exact ⟨.last key, content, Path.isParentOf_step_iff.mpr (Or.inl rfl), held⟩
        | table inner =>
            have below : table.below? key = some inner := by simp [below?, held]
            rcases onward inner below with ⟨front, content, parent, found⟩
            refine ⟨.step key front, content, ?_, by rw [find?_step, below]; exact found⟩
            exact Path.isParentOf_step_iff.mpr (Or.inr ⟨front, rfl, parent⟩)

-- Where the path is free, its first step has a table to go on in.
theorem free_step {table : Table} {key : Key} {rest : Path}
    (free : ¬ table.Blocked (.step key rest)) :
    ∃ inner, table.below? key = some inner ∧ ¬ inner.Blocked rest := by
  rw [blocked_step_iff] at free
  cases below : table.below? key with
  | none => exact absurd (fun inner same => by simp [below] at same) free
  | some inner =>
      refine ⟨inner, rfl, fun blocked => free fun other same => ?_⟩
      obtain rfl : inner = other := by simpa [below] using same
      exact blocked

/-- A blocked path changes nothing, not even on the way to the scalar. -/
theorem place_of_blocked {table : Table} {path : Path} (blocked : table.Blocked path)
    (content : Scalar) : table.place path content = table := by
  induction path generalizing table with
  | last key => exact absurd blocked (table.not_blocked_last key)
  | step key rest ih =>
      have inside := (blocked_step_iff table key rest).mp blocked
      cases held : table.get? key with
      | none =>
          rcases inside .empty (by simp [below?, held]) with ⟨front, _, -, found⟩
          simp at found
      | some value =>
          cases value with
          | scalar other => simp [place, held]
          | table inner =>
              have same := ih (inside inner (by simp [below?, held]))
              simp [place, held, same, set_of_get? held]

theorem find?_place {table : Table} {path : Path} (free : ¬ table.Blocked path)
    (content : Scalar) : (table.place path content).find? path = some (.scalar content) := by
  induction path generalizing table with
  | last key => simp [place, find?]
  | step key rest ih =>
      rcases free_step free with ⟨inner, below, innerFree⟩
      simp only [place_step, below, find?_step, below?_set_self, Option.bind_some]
      exact ih innerFree

theorem find?_place_parent {table : Table} {front path : Path} (free : ¬ table.Blocked path)
    (parent : front.isParentOf path = true) (content : Scalar) :
    ∃ inner, (table.place path content).find? front = some (.table inner) := by
  induction path generalizing table front with
  | last key => exact absurd parent (front.not_isParentOf_last key)
  | step key rest ih =>
      rcases free_step free with ⟨inner, below, innerFree⟩
      simp only [place_step, below]
      rcases Path.isParentOf_step_iff.mp parent with rfl | ⟨others, rfl, onward⟩
      · exact ⟨inner.place rest content, by simp [find?]⟩
      · simp only [find?_step, below?_set_self, Option.bind_some]
        exact ih innerFree onward

-- Nothing stands beyond the scalar.
theorem find?_place_beyond {table : Table} {path other : Path} (free : ¬ table.Blocked path)
    (beyond : path.isParentOf other = true) (content : Scalar) :
    (table.place path content).find? other = none := by
  induction path generalizing table other with
  | last key =>
      cases other with
      | last second => exact absurd beyond (Path.not_isParentOf_last _ _)
      | step second rest =>
          rcases Path.isParentOf_step_iff.mp beyond with same | ⟨_, same, -⟩
          · obtain rfl : key = second := by simpa using same
            simp [place, find?]
          · simp at same
  | step key rest ih =>
      rcases free_step free with ⟨inner, below, innerFree⟩
      cases other with
      | last second => exact absurd beyond (Path.not_isParentOf_last _ _)
      | step second others =>
          rcases Path.isParentOf_step_iff.mp beyond with same | ⟨_, same, onward⟩
          · simp at same
          · rcases Path.step.inj same with ⟨rfl, rfl⟩
            simp only [place_step, below, find?_step, below?_set_self, Option.bind_some]
            exact ih innerFree onward

/-- A path that lies apart leads where it led before, blocked or not. -/
theorem find?_place_apart {path other : Path} (different : other ≠ path)
    (notParent : ¬ other.isParentOf path = true) (notBeyond : ¬ path.isParentOf other = true)
    (table : Table) (content : Scalar) :
    (table.place path content).find? other = table.find? other := by
  induction path generalizing table other with
  | last key =>
      cases other with
      | last second =>
          have otherKey : second ≠ key := fun same => different (congrArg Path.last same)
          simp [place, find?, get?_set_ne otherKey]
      | step second rest =>
          have otherKey : second ≠ key := by
            rintro rfl
            exact notBeyond (Path.isParentOf_step_iff.mpr (Or.inl rfl))
          simp [place, find?, get?_set_ne otherKey]
  | step key rest ih =>
      rw [place_step]
      cases below : table.below? key with
      | none => rfl
      | some inner =>
          cases other with
          | last second =>
              have otherKey : second ≠ key := by
                rintro rfl
                exact notParent (Path.isParentOf_step_iff.mpr (Or.inl rfl))
              simp [find?, get?_set_ne otherKey]
          | step second others =>
              by_cases same : second = key
              -- Below a common key the two paths still lie apart.
              · subst same
                simp only [find?_step, below?_set_self, below, Option.bind_some]
                apply ih
                · intro equal
                  exact different (congrArg (Path.step second) equal)
                · exact fun parent =>
                    notParent (Path.isParentOf_step_iff.mpr (Or.inr ⟨others, rfl, parent⟩))
                · exact fun beyond =>
                    notBeyond (Path.isParentOf_step_iff.mpr (Or.inr ⟨rest, rfl, beyond⟩))
              · simp only [find?_step, below?_set_ne same]

theorem below?_cases {table inner : Table} {key : Key} (below : table.below? key = some inner) :
    table.get? key = some (.table inner) ∨ inner = .empty := by
  rw [below?] at below
  cases held : table.get? key with
  | none => exact Or.inr (by simpa [held, eq_comm] using below)
  | some value =>
      cases value with
      | scalar content => simp [held] at below
      | table other => exact Or.inl (by simpa [held] using below)

theorem place_ne_empty (table : Table) (path : Path) (content : Scalar) :
    table.place path content ≠ .empty := by
  cases path with
  | last key => exact set_ne_empty table key _
  | step key rest =>
      rw [place_step]
      cases below : table.below? key with
      | some inner => exact set_ne_empty table key _
      | none =>
          rintro rfl
          simp [below?] at below

/-- What setting the keys of a path keeps, at every level, placing a scalar there keeps. -/
theorem place_keeps {Holds : Table → Prop} {path : Path} {content : Scalar} (empty : Holds .empty)
    (inside : ∀ table key inner, Holds table → table.get? key = some (.table inner) → Holds inner)
    (scalar : ∀ table, ∀ key ∈ path.segments, Holds table →
      Holds (table.set key (.scalar content)))
    (branch : ∀ table inner, ∀ key ∈ path.segments, Holds table → inner ≠ .empty → Holds inner →
      Holds (table.set key (.table inner)))
    {table : Table} (holds : Holds table) : Holds (table.place path content) := by
  induction path generalizing table with
  | last key => exact scalar table key List.mem_cons_self holds
  | step key rest ih =>
      rw [place_step]
      cases below : table.below? key with
      | none => exact holds
      | some inner =>
          have held : Holds inner := by
            rcases below?_cases below with found | rfl
            · exact inside table key inner holds found
            · exact empty
          have placed : Holds (inner.place rest content) := by
            apply ih _ _ held
            · exact fun table key member => scalar table key (List.mem_cons_of_mem _ member)
            · exact fun table inner key member =>
                branch table inner key (List.mem_cons_of_mem _ member)
          have nonempty := place_ne_empty inner rest content
          exact branch table _ key List.mem_cons_self holds nonempty placed

theorem sorted_place {table : Table} (sorted : table.Sorted) (path : Path) (content : Scalar) :
    (table.place path content).Sorted :=
  place_keeps trivial (fun _ _ _ sorted held => sorted_get? sorted held)
    (fun _ key _ sorted => sorted_set sorted key (.scalar content) trivial)
    (fun _ _ key _ sorted _ inside => sorted_set sorted key (.table _) inside) sorted

def Filled : Table → Prop
  | .empty => True
  | .leaf _ _ rest => rest.Filled
  | .branch _ inner rest => (inner ≠ .empty ∧ inner.Filled) ∧ rest.Filled

theorem filled_iff (table : Table) :
    table.Filled ↔ ∀ key inner, (key, Value.table inner) ∈ table.entries →
      inner ≠ .empty ∧ inner.Filled := by
  induction table with
  | empty => simp [Filled, entries]
  | leaf key content rest ih => simp [Filled, entries, ih]
  | branch key inner rest _ ih =>
      simp only [Filled, entries, List.mem_cons, Prod.mk.injEq, Value.table.injEq, ih]
      constructor
      · rintro ⟨first, others⟩ other content (⟨rfl, rfl⟩ | later)
        · exact first
        · exact others other content later
      · intro all
        exact ⟨all key inner (Or.inl ⟨rfl, rfl⟩),
          fun other content later => all other content (Or.inr later)⟩

theorem filled_set_scalar {table : Table} (filled : table.Filled) (key : Key)
    (content : Scalar) : (table.set key (.scalar content)).Filled := by
  rw [filled_iff] at filled ⊢
  intro other inner member
  rcases mem_set member with same | old
  · simp at same
  · exact filled other inner old

theorem filled_set_table {table : Table} (filled : table.Filled) (key : Key) {inner : Table}
    (some : inner ≠ .empty) (inside : inner.Filled) : (table.set key (.table inner)).Filled := by
  rw [filled_iff] at filled ⊢
  intro other content member
  rcases mem_set member with same | old
  · obtain ⟨-, rfl⟩ : other = key ∧ content = inner := by simpa using same
    exact ⟨some, inside⟩
  · exact filled other content old

theorem filled_place {table : Table} (filled : table.Filled) (path : Path) (content : Scalar) :
    (table.place path content).Filled :=
  place_keeps trivial
    (fun table key inner filled held =>
      ((filled_iff table).mp filled key inner (mem_of_get? held)).2)
    (fun _ key _ filled => filled_set_scalar filled key content)
    (fun _ _ key _ filled some inside => filled_set_table filled key some inside) filled

def leaves : Table → List (Path × Scalar)
  | .empty => []
  | .leaf key content rest => (.last key, content) :: rest.leaves
  | .branch key inner rest =>
      inner.leaves.map (fun leaf => (.step key leaf.1, leaf.2)) ++ rest.leaves

theorem find?_cons_of_above {key : Key} {rest : Table} (above : rest.Above key)
    {path : Path} {value : Value} (found : rest.find? path = some value) (content : Value) :
    (cons key content rest).find? path = some value := by
  cases path with
  | last other => exact get?_cons_of_above above found content
  | step other others =>
      rw [find?] at found ⊢
      cases held : rest.get? other with
      | none => simp [held] at found
      | some inner =>
          rw [get?_cons_of_above above held content]
          simpa [held] using found

-- In a sorted table every scalar can be looked up.
theorem find?_of_mem_leaves {table : Table} (sorted : table.Sorted) {path : Path}
    {content : Scalar} (member : (path, content) ∈ table.leaves) :
    table.find? path = some (.scalar content) := by
  induction table generalizing path with
  | empty => simp [leaves] at member
  | leaf key held rest ih =>
      rcases sorted with ⟨above, restSorted⟩
      rcases List.mem_cons.mp member with same | later
      · rcases Prod.mk.inj same with ⟨rfl, rfl⟩
        simp [find?, get?]
      · exact find?_cons_of_above above (ih restSorted later) (.scalar held)
  | branch key inner rest innerIh restIh =>
      rcases sorted with ⟨above, innerSorted, restSorted⟩
      rcases List.mem_append.mp member with inside | later
      · rcases List.mem_map.mp inside with ⟨⟨below, scalar⟩, innerMember, same⟩
        rcases Prod.mk.inj same with ⟨rfl, rfl⟩
        simpa [find?, get?] using innerIh innerSorted innerMember
      · exact find?_cons_of_above above (restIh restSorted later) (.table inner)

theorem mem_leaves_of_scalar {table : Table} {key : Key} {content : Scalar}
    (member : (key, Value.scalar content) ∈ table.entries) :
    (Path.last key, content) ∈ table.leaves := by
  induction table with
  | empty => simp [entries] at member
  | leaf other held rest ih =>
      rcases List.mem_cons.mp member with same | later
      · simp only [Prod.mk.injEq, Value.scalar.injEq] at same
        simp [leaves, same]
      · exact List.mem_cons_of_mem _ (ih later)
  | branch other inner rest _ ih =>
      rcases List.mem_cons.mp member with same | later
      · simp at same
      · exact List.mem_append_right _ (ih later)

theorem mem_leaves_of_table {table inner : Table} {key : Key} {leaf : Path × Scalar}
    (member : (key, Value.table inner) ∈ table.entries) (inside : leaf ∈ inner.leaves) :
    (Path.step key leaf.1, leaf.2) ∈ table.leaves := by
  induction table with
  | empty => simp [entries] at member
  | leaf other held rest ih =>
      rcases List.mem_cons.mp member with same | later
      · simp at same
      · exact List.mem_cons_of_mem _ (ih later)
  | branch other held rest _ ih =>
      rcases List.mem_cons.mp member with same | later
      · simp only [Prod.mk.injEq, Value.table.injEq] at same
        obtain ⟨rfl, rfl⟩ := same
        exact List.mem_append_left _ (List.mem_map_of_mem inside)
      · exact List.mem_append_right _ (ih later)

/-- Every scalar that can be looked up is among the leaves. -/
theorem mem_leaves_of_find? {table : Table} {path : Path} {content : Scalar}
    (found : table.find? path = some (.scalar content)) : (path, content) ∈ table.leaves := by
  induction path generalizing table with
  | last key => exact mem_leaves_of_scalar (mem_of_get? found)
  | step key rest ih =>
      rw [find?] at found
      cases held : table.get? key with
      | none => simp [held] at found
      | some value =>
          cases value with
          | scalar other => simp [held] at found
          | table inner =>
              have below : inner.find? rest = some (.scalar content) := by
                simpa [held] using found
              exact mem_leaves_of_table (mem_of_get? held) (ih below)

end Table

def Value.Filled : Value → Prop
  | .scalar _ => True
  | .table content => content ≠ .empty ∧ content.Filled

namespace Value
variable {value inner : Value} {key : Key}

theorem sorted_child? (sorted : value.Sorted) (held : value.child? key = some inner) :
    inner.Sorted := by
  cases value with
  | scalar content => simp [child?] at held
  | table content => exact Table.sorted_get? sorted held

theorem filled_child? (filled : value.Filled) (held : value.child? key = some inner) :
    inner.Filled := by
  cases value with
  | scalar content => simp [child?] at held
  | table content =>
      cases inner with
      | scalar => trivial
      | table below =>
          exact (Table.filled_iff content).mp filled.2 key below (Table.mem_of_get? held)

end Value
end Stencil
