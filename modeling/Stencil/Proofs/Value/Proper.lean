import Stencil.Proofs.Template.Paths
import Stencil.Proofs.Value.Casting
import Stencil.Proofs.Value.Records

/-!
The tables that can be made. Their keys come from texts and numbers and their scalars are
finite, at every level, and neither setting a key nor placing a scalar changes that.
-/
namespace Stencil
namespace Key

inductive Made : Key → Prop
  | text (segment : Text) : Made (ofText segment)
  | number (position : UInt64) : Made (index position)

theorem made_iff {key : Key} : key.Made ↔ ofText key.written = key := by
  constructor
  · intro made
    cases made with
    | text segment => rw [written_ofText]
    | number position => exact ofText_digits position
  · intro read
    rw [← read]
    exact .text _

end Key

def Scalar.Finite : Scalar → Prop
  | .float number => number.isFinite = true
  | _ => True

theorem Scalar.finite_ofText (content : Text) : (ofText content).Finite := by
  cases scalar : ofText content with
  | text | integer => trivial
  | float number => exact isFinite_of_ofText scalar

def Table.Proper : Table → Prop
  | .empty => True
  | .leaf key content rest => (key.Made ∧ content.Finite) ∧ rest.Proper
  | .branch key inner rest => (key.Made ∧ inner.Proper) ∧ rest.Proper

def Value.Proper : Value → Prop
  | .scalar content => content.Finite
  | .table content => content.Proper

namespace Table

theorem proper_cons_iff {key : Key} {value : Value} {rest : Table} :
    (cons key value rest).Proper ↔ (key.Made ∧ value.Proper) ∧ rest.Proper := by
  cases value <;> exact Iff.rfl

theorem proper_iff {table : Table} :
    table.Proper ↔ ∀ entry ∈ table.entries, entry.1.Made ∧ entry.2.Proper := by
  induction table using cons_induction with
  | empty => simp [entries, Proper]
  | cons key value rest ih => rw [proper_cons_iff, entries_cons, List.forall_mem_cons, ih]

theorem proper_set {table : Table} (proper : table.Proper) {key : Key} {value : Value}
    (made : key.Made) (inside : value.Proper) : (table.set key value).Proper := by
  rw [proper_iff] at proper ⊢
  intro entry member
  rcases mem_set member with rfl | old
  · exact ⟨made, inside⟩
  · exact proper entry old

theorem proper_place {table : Table} (proper : table.Proper) {path : Path} {content : Scalar}
    (made : ∀ key ∈ path.segments, key.Made) (finite : content.Finite) :
    (table.place path content).Proper :=
  place_keeps trivial
    (fun _ key inner proper held =>
      (proper_iff.mp proper (key, .table inner) (mem_of_get? held)).2)
    (fun _ key member proper => proper_set proper (made key member) finite)
    (fun _ _ key member proper _ inside => proper_set proper (made key member) inside) proper

end Table

theorem placeAll_proper {entries : List (Path × Scalar)}
    (made : ∀ entry ∈ entries, (∀ key ∈ entry.1.segments, key.Made) ∧ entry.2.Finite) :
    (Table.placeAll entries).Proper :=
  List.foldlRecOn entries _ trivial fun _ proper entry member =>
    Table.proper_place proper (made entry member).1 (made entry member).2

theorem ofList_proper {entries : List (Key × Value)}
    (made : ∀ entry ∈ entries, entry.1.Made ∧ entry.2.Proper) :
    (Table.ofList entries).Proper :=
  List.foldlRecOn entries _ trivial fun _ proper entry member =>
    Table.proper_set proper (made entry member).1 (made entry member).2

theorem ofList_sorted {entries : List (Key × Value)}
    (inside : ∀ entry ∈ entries, entry.2.Sorted) : (Table.ofList entries).Sorted :=
  List.foldlRecOn entries _ trivial fun _ sorted entry member =>
    Table.sorted_set sorted entry.1 entry.2 (inside entry member)

theorem Value.proper_child? {value inner : Value} {key : Key} (proper : value.Proper)
    (held : value.child? key = some inner) : inner.Proper := by
  cases value with
  | scalar content => simp [child?] at held
  | table content => exact (Table.proper_iff.mp proper _ (Table.mem_of_get? held)).2

end Stencil
