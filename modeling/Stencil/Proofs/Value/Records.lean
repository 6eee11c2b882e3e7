import Stencil.Proofs.Value.Placement
import Stencil.Template.Conflict

/-!
Placing one scalar after the other. When no path leads on from the end of
another, no scalar ever stands in the way of a later one, and the finished table
is a record of the entries: each path leads to the last scalar placed there, the
paths on the way lead to tables, and no other path leads anywhere.
-/
namespace Stencil

def PrefixFree (paths : List Path) : Prop :=
  ∀ path ∈ paths, ∀ other ∈ paths, ¬ path.isParentOf other = true

theorem PrefixFree.mono {paths others : List Path} (apart : PrefixFree paths)
    (subset : others ⊆ paths) : PrefixFree others :=
  fun path placed other member => apart path (subset placed) other (subset member)

theorem firstConflict?_eq_none {paths : List Path} (none : firstConflict? paths = none) :
    PrefixFree paths := by
  induction paths with
  | nil => simp [PrefixFree]
  | cons path rest ih =>
      rw [firstConflict?] at none
      cases found : rest.find? path.conflicts with
      | some other => simp [found] at none
      | none =>
          have tail := ih (by simpa [found] using none)
          have apart (other : Path) (member : other ∈ rest) :
              ¬ path.isParentOf other = true ∧ ¬ other.isParentOf path = true := by
            simpa [Path.conflicts] using List.find?_eq_none.mp found other member
          -- Only a pair with the first path is new; the others are pairs of the rest.
          intro first firstMember second secondMember
          rcases List.mem_cons.mp firstMember with rfl | firstLater
          · rcases List.mem_cons.mp secondMember with rfl | secondLater
            · exact Path.isParentOf_irrefl _
            · exact (apart second secondLater).1
          · rcases List.mem_cons.mp secondMember with rfl | secondLater
            · exact (apart first firstLater).2
            · exact tail first firstLater second secondLater

theorem isParentOf_of_firstConflict? {paths : List Path} {path : Path}
    (found : firstConflict? paths = some path) :
    path ∈ paths ∧ ∃ other ∈ paths, path.isParentOf other = true := by
  induction paths with
  | nil => simp [firstConflict?] at found
  | cons first rest ih =>
      rw [firstConflict?] at found
      cases clash : rest.find? first.conflicts with
      | none =>
          rw [clash] at found
          obtain ⟨member, other, placed, parent⟩ := ih found
          exact ⟨.tail first member, other, .tail first placed, parent⟩
      | some other =>
          have placed := List.mem_of_find?_eq_some clash
          have either : first.isParentOf other = true ∨ other.isParentOf first = true := by
            simpa [Path.conflicts] using List.find?_some clash
          simp only [clash, Option.some.injEq] at found
          subst found
          split
          next parent => exact ⟨.head rest, other, .tail first placed, parent⟩
          next childless =>
            have parent := either.resolve_left childless
            exact ⟨.tail first placed, first, .head rest, parent⟩

/-- A conflict is found unless no path is a parent of another. -/
theorem firstConflict?_eq_none_iff {paths : List Path} :
    firstConflict? paths = none ↔ PrefixFree paths := by
  constructor
  · exact firstConflict?_eq_none
  · intro apart
    rw [Option.eq_none_iff_forall_ne_some]
    intro path found
    obtain ⟨member, other, placed, parent⟩ := isParentOf_of_firstConflict? found
    exact apart path member other placed parent

def lastScalar? (entries : List (Path × Scalar)) (path : Path) : Option Scalar :=
  (entries.reverse.find? fun entry => entry.1 = path).map Prod.snd

theorem lastScalar?_append (entries : List (Path × Scalar)) (entry : Path × Scalar)
    (path : Path) :
    lastScalar? (entries ++ [entry]) path =
      if entry.1 = path then some entry.2 else lastScalar? entries path := by
  unfold lastScalar?
  rw [List.reverse_append, List.reverse_singleton, List.singleton_append, List.find?_cons]
  by_cases same : entry.1 = path <;> simp [same]

theorem mem_of_lastScalar? {entries : List (Path × Scalar)} {path : Path} {content : Scalar}
    (last : lastScalar? entries path = some content) : (path, content) ∈ entries := by
  rcases Option.map_eq_some_iff.mp last with ⟨entry, found, rfl⟩
  have same : entry.1 = path := by simpa using List.find?_some found
  rw [← same]
  exact List.mem_reverse.mp (List.mem_of_find?_eq_some found)

theorem lastScalar?_of_latest {earlier later : List (Path × Scalar)} {entry : Path × Scalar}
    (latest : ∀ other ∈ later, other.1 ≠ entry.1) :
    lastScalar? (earlier ++ entry :: later) entry.1 = some entry.2 := by
  have skipped : later.reverse.find? (fun other => other.1 = entry.1) = none := by
    simpa [List.find?_eq_none] using latest
  simp [lastScalar?, List.find?_append, skipped]

theorem exists_lastScalar? {entries : List (Path × Scalar)} {path : Path}
    (placed : path ∈ entries.map Prod.fst) :
    ∃ content, lastScalar? entries path = some content := by
  rcases List.mem_map.mp placed with ⟨entry, member, rfl⟩
  have found : (entries.reverse.find? fun other => other.1 = entry.1).isSome := by
    rw [List.find?_isSome]
    exact ⟨entry, List.mem_reverse.mpr member, by simp⟩
  rcases Option.isSome_iff_exists.mp found with ⟨last, found⟩
  exact ⟨last.2, by simp [lastScalar?, found]⟩

structure Table.Records (entries : List (Path × Scalar)) (table : Table) : Prop where
  scalars : ∀ path content,
    table.find? path = some (.scalar content) ↔ lastScalar? entries path = some content
  tables : ∀ path, (∃ inner, table.find? path = some (.table inner)) ↔
    ∃ entry ∈ entries, path.isParentOf entry.1 = true

namespace Table.Records
variable {entries : List (Path × Scalar)} {entry : Path × Scalar} {table : Table}

theorem empty : Records [] .empty := ⟨by simp [lastScalar?], by simp⟩

-- No recorded scalar stands on the way of a path that fits in.
theorem free (records : Records entries table)
    (apart : PrefixFree ((entries ++ [entry]).map Prod.fst)) : ¬ table.Blocked entry.1 := by
  rintro ⟨front, content, parent, found⟩
  have member := mem_of_lastScalar? ((records.scalars front content).mp found)
  have placed : front ∈ (entries ++ [entry]).map Prod.fst :=
    List.mem_map.mpr ⟨(front, content), by simp [member], rfl⟩
  exact apart front placed entry.1 (by simp) parent

section
variable (apart : PrefixFree ((entries ++ [entry]).map Prod.fst))
include apart

theorem apart_of_earlier {other : Path × Scalar} (earlier : other ∈ entries) :
    other.1.isParentOf entry.1 ≠ true ∧ entry.1.isParentOf other.1 ≠ true := by
  have here : entry.1 ∈ (entries ++ [entry]).map Prod.fst := by simp
  have placed : other.1 ∈ (entries ++ [entry]).map Prod.fst :=
    List.mem_map.mpr ⟨other, by simp [earlier], rfl⟩
  exact ⟨apart other.1 placed entry.1 here, apart entry.1 here other.1 placed⟩

-- A path on the way of the new one, or beyond it, is no recorded path itself.
theorem unplaced {path : Path} (related : path.isParentOf entry.1 = true ∨
    entry.1.isParentOf path = true) : lastScalar? entries path = none := by
  rw [Option.eq_none_iff_forall_ne_some]
  intro content last
  obtain ⟨notParent, notBeyond⟩ := apart_of_earlier apart (mem_of_lastScalar? last)
  exact related.elim notParent notBeyond

-- No recorded path leads on from the end of the new one.
theorem no_further {path : Path} (reached : path = entry.1 ∨ entry.1.isParentOf path = true) :
    ¬ ∃ other ∈ entries, path.isParentOf other.1 = true := by
  rintro ⟨other, earlier, onward⟩
  have notBeyond := (apart_of_earlier apart earlier).2
  rcases reached with rfl | beyond
  · exact notBeyond onward
  · exact notBeyond (Path.isParentOf_trans beyond onward)

theorem place_scalars (records : Records entries table) (path : Path) (content : Scalar) :
    (table.place entry.1 entry.2).find? path = some (.scalar content) ↔
      lastScalar? (entries ++ [entry]) path = some content := by
  have free := records.free apart
  rw [lastScalar?_append]
  by_cases same : entry.1 = path
  · subst same
    simp [find?_place free]
  rw [if_neg same]
  by_cases parent : path.isParentOf entry.1 = true
  · rcases find?_place_parent free parent entry.2 with ⟨inner, found⟩
    simp [found, unplaced apart (Or.inl parent)]
  by_cases beyond : entry.1.isParentOf path = true
  · simp [find?_place_beyond free beyond, unplaced apart (Or.inr beyond)]
  · rw [find?_place_apart (Ne.symm same) parent beyond]
    exact records.scalars path content

theorem place_tables (records : Records entries table) (path : Path) :
    (∃ inner, (table.place entry.1 entry.2).find? path = some (.table inner)) ↔
      ∃ other ∈ entries ++ [entry], path.isParentOf other.1 = true := by
  have free := records.free apart
  have split : (∃ other ∈ entries ++ [entry], path.isParentOf other.1 = true) ↔
      (∃ other ∈ entries, path.isParentOf other.1 = true) ∨ path.isParentOf entry.1 = true := by
    simp [or_and_right, exists_or]
  rw [split]
  by_cases parent : path.isParentOf entry.1 = true
  · simp [parent, find?_place_parent free parent entry.2]
  by_cases same : path = entry.1
  · have none := no_further apart (Or.inl same)
    subst same
    simpa [find?_place free, parent] using none
  by_cases beyond : entry.1.isParentOf path = true
  · simpa [find?_place_beyond free beyond, parent] using no_further apart (Or.inr beyond)
  · rw [find?_place_apart same parent beyond, records.tables]
    simp [parent]

theorem place (records : Records entries table) :
    Records (entries ++ [entry]) (table.place entry.1 entry.2) :=
  ⟨place_scalars apart records, place_tables apart records⟩

end

theorem exists_scalar_iff (records : Records entries table) (path : Path) :
    (∃ content, table.find? path = some (.scalar content)) ↔ path ∈ entries.map Prod.fst := by
  constructor
  · rintro ⟨content, found⟩
    have placed := mem_of_lastScalar? ((records.scalars path content).mp found)
    exact List.mem_map_of_mem placed
  · intro placed
    obtain ⟨content, last⟩ := exists_lastScalar? placed
    exact ⟨content, (records.scalars path content).mpr last⟩

theorem exists_table_iff (records : Records entries table) (path : Path) :
    (∃ inner, table.find? path = some (.table inner)) ↔
      ∃ other ∈ entries.map Prod.fst, path.isParentOf other = true := by
  rw [records.tables]
  constructor
  · rintro ⟨entry, member, parent⟩
    exact ⟨entry.1, List.mem_map_of_mem member, parent⟩
  · rintro ⟨other, placed, parent⟩
    obtain ⟨entry, member, rfl⟩ := List.mem_map.mp placed
    exact ⟨entry, member, parent⟩

-- Placing the remaining entries keeps the record.
theorem foldl (rest : List (Path × Scalar)) (records : Records entries table)
    (apart : PrefixFree ((entries ++ rest).map Prod.fst)) :
    Records (entries ++ rest)
      (rest.foldl (fun table entry => table.place entry.1 entry.2) table) := by
  induction rest generalizing entries table with
  | nil => simpa using records
  | cons entry rest ih =>
      rw [List.append_cons] at apart ⊢
      have front : PrefixFree ((entries ++ [entry]).map Prod.fst) := by
        rw [List.map_append] at apart
        exact apart.mono (List.subset_append_left _ _)
      exact ih (place front records) apart

end Table.Records

theorem records_placeAll {entries : List (Path × Scalar)}
    (apart : PrefixFree (entries.map Prod.fst)) :
    (Table.placeAll entries).Records entries :=
  Table.Records.foldl entries .empty apart

-- When its turn comes, no entry finds a scalar in the way.
theorem placeAll_free {earlier later : List (Path × Scalar)} {entry : Path × Scalar}
    (apart : PrefixFree ((earlier ++ entry :: later).map Prod.fst)) :
    ¬ (Table.placeAll earlier).Blocked entry.1 := by
  rw [List.append_cons, List.map_append] at apart
  have through := apart.mono (List.subset_append_left _ _)
  rw [List.map_append] at through
  have before := through.mono (List.subset_append_left _ _)
  rw [← List.map_append] at through
  exact (records_placeAll before).free through

theorem placeAll_sorted (entries : List (Path × Scalar)) : (Table.placeAll entries).Sorted :=
  List.foldlRecOn entries _ trivial fun _ sorted entry _ =>
    Table.sorted_place sorted entry.1 entry.2

theorem placeAll_filled (entries : List (Path × Scalar)) : (Table.placeAll entries).Filled :=
  List.foldlRecOn entries _ trivial fun _ filled entry _ =>
    Table.filled_place filled entry.1 entry.2

theorem placeAll_ne_empty {entries : List (Path × Scalar)} (some : entries ≠ []) :
    Table.placeAll entries ≠ .empty := by
  obtain ⟨front, last, rfl⟩ : ∃ front last, entries = front ++ [last] :=
    ⟨entries.dropLast, entries.getLast some, (List.dropLast_concat_getLast some).symm⟩
  rw [Table.placeAll, List.foldl_append]
  exact Table.place_ne_empty _ last.1 last.2

end Stencil
