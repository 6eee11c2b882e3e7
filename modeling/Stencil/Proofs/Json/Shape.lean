import Stencil.Proofs.Json.Nodes
import Stencil.Proofs.Value.Blanking

/-!
The shape of a JSON tree is what stays when its strings and numbers are emptied. If no
scalar of a table turns into a null, the shape of its tree is that of the table without
what the scalars hold.
-/
namespace Stencil
namespace Json

mutual

/-- The tree with every string and number replaced by an empty string. A null stays. -/
def blanked : Json → Json
  | .null => .null
  | .integer _ => .string []
  | .float _ => .string []
  | .string _ => .string []
  | .array items => .array (blankedItems items)
  | .object members => .object (blankedMembers members)

def blankedItems : List Json → List Json
  | [] => []
  | item :: rest => item.blanked :: blankedItems rest

def blankedMembers : List (Text × Json) → List (Text × Json)
  | [] => []
  | (name, value) :: rest => (name, value.blanked) :: blankedMembers rest

end

@[simp] theorem blankedItems_eq (items : List Json) : blankedItems items = items.map blanked := by
  induction items with
  | nil => rfl
  | cons item rest ih => rw [blankedItems, ih, List.map_cons]

@[simp] theorem blankedMembers_eq (members : List (Text × Json)) :
    blankedMembers members = members.map fun member => (member.1, member.2.blanked) := by
  induction members with
  | nil => rfl
  | cons member rest ih =>
      obtain ⟨name, value⟩ := member
      rw [blankedMembers, ih, List.map_cons]

theorem setMember_map (change : Json → Json) (name : Text) (value : Json)
    (members : List (Text × Json)) :
    (setMember name value members).map (fun member => (member.1, change member.2)) =
      setMember name (change value) (members.map fun member => (member.1, change member.2)) := by
  induction members with
  | nil => rfl
  | cons first rest ih =>
      rw [setMember, List.map_cons, setMember]
      split
      · rfl
      · split
        · rfl
        · rw [List.map_cons, ih]

theorem sortedMembers_map (change : Json → Json) (entries : List (Key × Json)) :
    (sortedMembers entries).map (fun member => (member.1, change member.2)) =
      sortedMembers (entries.map fun entry => (entry.1, change entry.2)) := by
  rw [sortedMembers, sortedMembers, List.foldl_map]
  have step (members : List (Text × Json)) (entry : Key × Json) :
      setMember entry.1.written (change entry.2)
          (members.map fun member => (member.1, change member.2)) =
        (setMember entry.1.written entry.2 members).map fun member => (member.1, change member.2) :=
    (setMember_map change entry.1.written entry.2 members).symm
  exact (List.foldl_hom _ step).symm

theorem blanked_ofEntries (entries : List (Key × Json)) :
    (ofEntries entries).blanked =
      ofEntries (entries.map fun entry => (entry.1, entry.2.blanked)) := by
  have keys : (entries.map fun entry => (entry.1, entry.2.blanked)).map Prod.fst =
      entries.map Prod.fst := by
    rw [List.map_map]
    rfl
  rw [ofEntries, ofEntries, keys]
  split
  · rw [blanked, blankedItems_eq, List.map_map, List.map_map]
    rfl
  · rw [blanked, blankedMembers_eq, sortedMembers_map]

theorem blanked_of_isValue {tree : Json} (value : tree.IsValue) : tree.blanked = .string [] := by
  cases tree with
  | string | integer | float => rfl
  | null | array | object => exact value.elim

theorem blanked_entriesOf {table : Table}
    (values : ∀ leaf ∈ table.leaves, (ofScalar leaf.2).IsValue) :
    (entriesOf table).map (fun entry => (entry.1, entry.2.blanked)) =
      entriesOf table.blanked := by
  induction table with
  | empty => rfl
  | leaf key content rest ih =>
      have here : (ofScalar content).blanked = .string [] :=
        blanked_of_isValue (values (.last key, content) List.mem_cons_self)
      have behind := ih fun leaf member => values leaf (List.mem_cons_of_mem _ member)
      rw [entriesOf, List.map_cons, here, behind]
      rfl
  | branch key inner rest innerIh restIh =>
      have inside := innerIh fun leaf member =>
        values (.step key leaf.1, leaf.2) (List.mem_append_left _ (List.mem_map_of_mem member))
      have behind := restIh fun leaf member => values leaf (List.mem_append_right _ member)
      rw [entriesOf, List.map_cons, blanked_ofEntries, inside, behind]
      rfl

/-- Without a null in it, the tree has the shape that the keys of the table give it. -/
theorem blanked_ofTable {table : Table}
    (values : ∀ leaf ∈ table.leaves, (ofScalar leaf.2).IsValue) :
    (ofTable table).blanked = ofTable table.blanked := by
  rw [ofTable, ofTable, blanked_ofEntries, blanked_entriesOf values]

end Json
end Stencil
