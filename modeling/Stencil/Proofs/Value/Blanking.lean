import Stencil.Proofs.Value.Lookup

/-!
Tables without what their scalars hold. Setting and placing never look at a scalar, so
which keys a table has at each level follows from the paths that were placed, whatever
was placed there.
-/
namespace Stencil

def Table.blanked : Table → Table
  | .empty => .empty
  | .leaf key _ rest => .leaf key (.text []) rest.blanked
  | .branch key inner rest => .branch key inner.blanked rest.blanked

def Value.blanked : Value → Value
  | .scalar _ => .scalar (.text [])
  | .table content => .table content.blanked

namespace Table

@[simp] theorem blanked_cons (key : Key) (value : Value) (rest : Table) :
    (cons key value rest).blanked = cons key value.blanked rest.blanked := by
  cases value <;> rfl

theorem get?_blanked (table : Table) (key : Key) :
    table.blanked.get? key = (table.get? key).map Value.blanked := by
  induction table using cons_induction with
  | empty => rfl
  | cons other content rest ih =>
      rw [blanked_cons, get?_cons, get?_cons, ih]
      split
      · rfl
      · split <;> rfl

theorem set_blanked (table : Table) (key : Key) (value : Value) :
    (table.set key value).blanked = table.blanked.set key value.blanked := by
  induction table using cons_induction with
  | empty => exact blanked_cons key value .empty
  | cons other content rest ih =>
      rw [blanked_cons, set_cons, set_cons, ← ih]
      split
      · exact blanked_cons key value rest
      · split <;> simp

/-- Placing anything at a path looks the same once the scalars are blanked. -/
theorem place_blanked (table : Table) (path : Path) (content : Scalar) :
    (table.place path content).blanked = table.blanked.place path (.text []) := by
  induction path generalizing table with
  | last key => exact set_blanked table key (.scalar content)
  | step key rest ih =>
      rw [place, place, get?_blanked]
      cases table.get? key with
      | none =>
          have inside : (Table.empty.place rest content).blanked =
              Table.empty.place rest (.text []) := ih .empty
          simp [set_blanked, Value.blanked, inside]
      | some value =>
          cases value with
          | scalar held => rfl
          | table inner => simp [set_blanked, Value.blanked, ih]

/-- The keys of the table depend on the paths of the entries only. -/
theorem blanked_placeAll (entries : List (Path × Scalar)) :
    (placeAll entries).blanked =
      placeAll (entries.map fun entry => (entry.1, Scalar.text [])) := by
  rw [placeAll, placeAll, List.foldl_map]
  have step (table : Table) (entry : Path × Scalar) :
      table.blanked.place entry.1 (.text []) = (table.place entry.1 entry.2).blanked :=
    (place_blanked table entry.1 entry.2).symm
  exact (List.foldl_hom blanked step).symm

theorem blanked_placeAll_congr {entries others : List (Path × Scalar)}
    (same : entries.map Prod.fst = others.map Prod.fst) :
    (placeAll entries).blanked = (placeAll others).blanked := by
  have blank (entries : List (Path × Scalar)) :
      entries.map (fun entry => (entry.1, Scalar.text [])) =
        (entries.map Prod.fst).map fun path => (path, Scalar.text []) := by
    rw [List.map_map]
    rfl
  rw [blanked_placeAll, blanked_placeAll, blank, blank, same]

end Table
end Stencil
