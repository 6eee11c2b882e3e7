import Mathlib.Data.List.Sort
import Stencil.Proofs.Template.Paths
import Stencil.Proofs.Value.Placement

/-!
The frame of a placement, told by where keys lead. A scalar that stands before the end of the
path bars it, and then the table stays as it was, with nothing made on the way. Otherwise the
path leads to the new scalar, all keys before its end lead to tables, and whatever is neither
on the way nor beyond the end leads where it led before. This leaves no choice: of the tables
that are in order, only one keeps to the frame.
-/
namespace Stencil
namespace Value

def Alike (value other : Value) : Prop :=
  ∀ keys, (value.descend? keys).map scalar? = (other.descend? keys).map scalar?

-- Nothing stands below a scalar.
theorem descend?_beyond {value : Value} {keys further : List Key} {content : Scalar}
    (reached : value.descend? keys = some (.scalar content)) (beyond : keys <+: further)
    (different : keys ≠ further) : value.descend? further = none := by
  obtain ⟨more, rfl⟩ := beyond
  rw [descend?_append, reached, Option.bind_some]
  cases more with
  | nil => exact absurd (List.append_nil keys).symm different
  | cons key rest => rfl

theorem Alike.child? {value other : Value} (alike : value.Alike other) (key : Key) :
    value.child? key = none ∧ other.child? key = none ∨
      ∃ inner held, value.child? key = some inner ∧ other.child? key = some held ∧
        inner.Alike held := by
  have below (more : List Key) :
      ((value.child? key).bind fun inner => inner.descend? more).map scalar? =
        ((other.child? key).bind fun held => held.descend? more).map scalar? :=
    alike (key :: more)
  cases found : value.child? key with
  | none =>
      cases otherFound : other.child? key with
      | none => exact Or.inl ⟨rfl, rfl⟩
      | some held => simpa [found, otherFound, descend?] using below []
  | some inner =>
      cases otherFound : other.child? key with
      | none => simpa [found, otherFound, descend?] using below []
      | some held =>
          refine Or.inr ⟨inner, held, rfl, rfl, fun more => ?_⟩
          simpa [found, otherFound] using below more

end Value

namespace Table

/-- What a table has whenever the tables under its keys have it, every table has. -/
theorem inner_induction {motive : Table → Prop}
    (step : ∀ table, (∀ key inner, (key, Value.table inner) ∈ table.entries → motive inner) →
      motive table) (table : Table) : motive table := by
  apply step
  induction table with
  | empty => simp [entries]
  | leaf key content rest ih =>
      intro other inner member
      rcases List.mem_cons.mp member with same | later
      · simp at same
      · exact ih other inner later
  | branch key inner rest innerIh restIh =>
      intro other held member
      rcases List.mem_cons.mp member with same | later
      · obtain ⟨-, rfl⟩ : other = key ∧ held = inner := by simpa using same
        exact step held innerIh
      · exact restIh other held later

theorem entries_injective {table other : Table} (same : table.entries = other.entries) :
    table = other := by
  induction table using cons_induction generalizing other with
  | empty =>
      cases other with
      | empty => rfl
      | leaf | branch => simp [entries] at same
  | cons key value rest ih =>
      rw [entries_cons] at same
      induction other using cons_induction with
      | empty => simp [entries] at same
      | cons otherKey held otherRest =>
          rw [entries_cons] at same
          obtain ⟨first, further⟩ := List.cons.inj same
          obtain ⟨rfl, rfl⟩ := Prod.mk.inj first
          rw [ih further]

/-- Tables in order with the same values under the same keys are the same. -/
theorem eq_of_get? {table other : Table} (sorted : table.Sorted) (otherSorted : other.Sorted)
    (same : ∀ key, table.get? key = other.get? key) : table = other := by
  have irrefl : Std.Irrefl fun first second : Key × Value => first.1 < second.1 :=
    ⟨fun entry => Key.lt_irrefl entry.1⟩
  have antisymm : Std.Antisymm fun first second : Key × Value => first.1 < second.1 :=
    ⟨fun first _ before after => absurd (Key.lt_trans before after) (Key.lt_irrefl first.1)⟩
  apply entries_injective
  apply (List.pairwise_map.mp (pairwise_keys sorted)).eq_of_mem_iff
    (List.pairwise_map.mp (pairwise_keys otherSorted))
  rintro ⟨key, value⟩
  rw [← get?_eq_some_iff_mem sorted, ← get?_eq_some_iff_mem otherSorted, same key]

/-- So are tables in order that have the same scalars and the same tables under the same keys,
at every level. -/
theorem eq_of_alike {table other : Table} (sorted : table.Sorted) (otherSorted : other.Sorted)
    (alike : (Value.table table).Alike (.table other)) : table = other := by
  induction table using inner_induction generalizing other with
  | step table ih =>
      apply eq_of_get? sorted otherSorted
      intro key
      change (Value.table table).child? key = (Value.table other).child? key
      rcases alike.child? key with ⟨unused, otherUnused⟩ | ⟨value, held, found, otherFound, inside⟩
      · rw [unused, otherUnused]
      · rw [found, otherFound]
        have kinds : value.scalar? = held.scalar? := Option.some.inj (inside [])
        cases value with
        | scalar content =>
            cases held with
            | scalar otherContent => simpa [Value.scalar?] using kinds
            | table => simp [Value.scalar?] at kinds
        | table inner =>
            cases held with
            | scalar => simp [Value.scalar?] at kinds
            | table otherInner =>
                have innerSorted : inner.Sorted := sorted_get? sorted found
                have otherInnerSorted : otherInner.Sorted := sorted_get? otherSorted otherFound
                rw [ih key inner (mem_of_get? found) innerSorted otherInnerSorted inside]

/-- A scalar stands at keys that come before the end of the given ones. -/
def Barred (table : Table) (keys : List Key) : Prop :=
  ∃ front content, front <+: keys ∧ front ≠ keys ∧
    (Value.table table).descend? front = some (.scalar content)

theorem barred_iff {table : Table} {path : Path} :
    table.Barred path.segments ↔ table.Blocked path := by
  constructor
  · rintro ⟨front, content, start, different, found⟩
    obtain ⟨parent, rfl, held⟩ := descend?_eq_scalar_iff.mp found
    exact ⟨parent, content, (Path.isParentOf_iff parent path).mpr ⟨start, different⟩, held⟩
  · rintro ⟨parent, content, leads, held⟩
    obtain ⟨start, different⟩ := (Path.isParentOf_iff parent path).mp leads
    have found := descend?_eq_scalar_iff.mpr ⟨parent, rfl, held⟩
    exact ⟨parent.segments, content, start, different, found⟩

/-- The second table differs from the first only by the scalar at the end of the path. -/
structure Framed (table : Table) (path : Path) (content : Scalar) (placed : Table) : Prop where
  unchanged : table.Barred path.segments → placed = table
  reached : ¬ table.Barred path.segments →
    (Value.table placed).descend? path.segments = some (.scalar content)
  passed : ¬ table.Barred path.segments → ∀ front, front <+: path.segments →
    front ≠ path.segments →
      ∃ inner, (Value.table placed).descend? front = some (.table inner)
  apart : ∀ keys, ¬ keys <+: path.segments → ¬ path.segments <+: keys →
    (Value.table placed).descend? keys = (Value.table table).descend? keys

section
variable {table placed other : Table} {path : Path} {content : Scalar}

theorem descend?_place_front (free : ¬ table.Blocked path) {front : List Key}
    (start : front <+: path.segments) (different : front ≠ path.segments) (content : Scalar) :
    ∃ inner, (Value.table (table.place path content)).descend? front = some (.table inner) := by
  by_cases root : front = []
  · exact ⟨table.place path content, by rw [root]; rfl⟩
  · obtain ⟨parent, rfl⟩ := Path.exists_segments root
    rw [descend?_segments]
    exact find?_place_parent free ((Path.isParentOf_iff parent path).mpr ⟨start, different⟩) content

theorem descend?_place_apart {keys : List Key} (notBefore : ¬ keys <+: path.segments)
    (notBeyond : ¬ path.segments <+: keys) (table : Table) (content : Scalar) :
    (Value.table (table.place path content)).descend? keys =
      (Value.table table).descend? keys := by
  have nonempty : keys ≠ [] := by
    rintro rfl
    exact notBefore List.nil_prefix
  obtain ⟨other, rfl⟩ := Path.exists_segments nonempty
  rw [descend?_segments, descend?_segments]
  apply find?_place_apart
  · rintro rfl
    exact notBefore List.prefix_rfl
  · exact fun parent => notBefore ((Path.isParentOf_iff other path).mp parent).1
  · exact fun parent => notBeyond ((Path.isParentOf_iff path other).mp parent).1

theorem framed_place (table : Table) (path : Path) (content : Scalar) :
    Framed table path content (table.place path content) where
  unchanged barred := place_of_blocked (barred_iff.mp barred) content
  reached free := by
    rw [barred_iff] at free
    rw [descend?_segments, find?_place free]
  passed free front start different := by
    rw [barred_iff] at free
    exact descend?_place_front free start different content
  apart keys notBefore notBeyond := descend?_place_apart notBefore notBeyond table content

-- Any keys are those of the path, or come before its end, or go beyond it, or lie apart.
theorem Framed.alike (framed : Framed table path content placed)
    (otherFramed : Framed table path content other) (free : ¬ table.Barred path.segments) :
    (Value.table placed).Alike (.table other) := by
  intro keys
  by_cases whole : keys = path.segments
  · rw [whole, framed.reached free, otherFramed.reached free]
  by_cases start : keys <+: path.segments
  · obtain ⟨inner, found⟩ := framed.passed free keys start whole
    obtain ⟨otherInner, otherFound⟩ := otherFramed.passed free keys start whole
    rw [found, otherFound]
    rfl
  by_cases beyond : path.segments <+: keys
  · rw [Value.descend?_beyond (framed.reached free) beyond (Ne.symm whole),
      Value.descend?_beyond (otherFramed.reached free) beyond (Ne.symm whole)]
  · rw [framed.apart keys start beyond, otherFramed.apart keys start beyond]

theorem Framed.unique (framed : Framed table path content placed)
    (otherFramed : Framed table path content other) (sorted : placed.Sorted)
    (otherSorted : other.Sorted) : placed = other := by
  by_cases barred : table.Barred path.segments
  · rw [framed.unchanged barred, otherFramed.unchanged barred]
  · exact eq_of_alike sorted otherSorted (framed.alike otherFramed barred)

end

/-- Placing a scalar keeps to the frame, and where the tables are in order nothing else does. -/
theorem place_keeps_frame (table : Table) (path : Path) (content : Scalar) :
    Framed table path content (table.place path content) ∧
      ∀ other : Table, table.Sorted → other.Sorted → Framed table path content other →
        other = table.place path content := by
  have kept := framed_place table path content
  refine ⟨kept, fun other sorted otherSorted otherFramed => ?_⟩
  exact otherFramed.unique kept otherSorted (sorted_place sorted path content)

-- A scalar takes the place of a whole table and never gives way to one.
example : (Table.branch (.name ['a']) (.leaf (.index 0) (.integer 1) .empty) .empty).place
    (.last (.name ['a'])) (.integer 2) = .leaf (.name ['a']) (.integer 2) .empty := by decide

example : (Table.leaf (.name ['a']) (.integer 2) .empty).place
    (.step (.name ['a']) (.step (.index 0) (.last (.index 1)))) (.integer 1) =
      .leaf (.name ['a']) (.integer 2) .empty := by decide

end Table
end Stencil
