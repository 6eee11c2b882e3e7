import Stencil.Template.Path
import Stencil.Value.Scalar

/-!
A table holds scalars and further tables under keys, in the order of the keys.
Looking up and setting both stop at the first key that is not before the one
asked for, so an entry is where both expect it. Placing a scalar at a path
makes the tables on the way; a scalar that already stands on the way blocks it.
-/
namespace Stencil

inductive Table where
  | empty
  | leaf (key : Key) (scalar : Scalar) (rest : Table)
  | branch (key : Key) (inner : Table) (rest : Table)
  deriving DecidableEq, Repr

inductive Value where
  | scalar (scalar : Scalar)
  | table (table : Table)
  deriving DecidableEq, Repr

namespace Table

def cons (key : Key) (value : Value) (rest : Table) : Table :=
  match value with
  | .scalar content => .leaf key content rest
  | .table inner => .branch key inner rest

def entries : Table → List (Key × Value)
  | .empty => []
  | .leaf key content rest => (key, .scalar content) :: rest.entries
  | .branch key inner rest => (key, .table inner) :: rest.entries

def size (table : Table) : Nat := table.entries.length

def Above (lowest : Key) (table : Table) : Prop := ∀ entry ∈ table.entries, lowest < entry.1

def Sorted : Table → Prop
  | .empty => True
  | .leaf key _ rest => rest.Above key ∧ rest.Sorted
  | .branch key inner rest => rest.Above key ∧ inner.Sorted ∧ rest.Sorted

def get? (key : Key) : Table → Option Value
  | .empty => none
  | .leaf other content rest =>
      if key = other then some (.scalar content)
      else if key < other then none
      else rest.get? key
  | .branch other inner rest =>
      if key = other then some (.table inner)
      else if key < other then none
      else rest.get? key

def set (key : Key) (value : Value) : Table → Table
  | .empty => cons key value .empty
  | .leaf other content rest =>
      if key = other then cons key value rest
      else if key < other then cons key value (.leaf other content rest)
      else .leaf other content (rest.set key value)
  | .branch other inner rest =>
      if key = other then cons key value rest
      else if key < other then cons key value (.branch other inner rest)
      else .branch other inner (rest.set key value)

def place (table : Table) (path : Path) (content : Scalar) : Table :=
  match path with
  | .last key => table.set key (.scalar content)
  | .step key rest =>
      match table.get? key with
      | some (.scalar _) => table
      | some (.table inner) => table.set key (.table (inner.place rest content))
      | none => table.set key (.table (Table.empty.place rest content))

def placeAll (entries : List (Path × Scalar)) : Table :=
  entries.foldl (fun table entry => table.place entry.1 entry.2) .empty

def ofList (entries : List (Key × Value)) : Table :=
  entries.foldl (fun table entry => table.set entry.1 entry.2) .empty

end Table

namespace Value

def scalar? : Value → Option Scalar
  | .scalar content => some content
  | .table _ => none

def table? : Value → Option Table
  | .scalar _ => none
  | .table content => some content

def text? : Value → Option Text
  | .scalar (.text content) => some content
  | _ => none

def integer? : Value → Option Int64
  | .scalar (.integer number) => some number
  | _ => none

def float? : Value → Option Binary64
  | .scalar (.float number) => some number
  | _ => none

def child? (value : Value) (key : Key) : Option Value :=
  match value with
  | .scalar _ => none
  | .table content => content.get? key

def descend? (value : Value) (keys : List Key) : Option Value := keys.foldlM child? value

/-- Looks up a dotted path, whose segments are taken as they stand. -/
def get? (value : Value) (path : Text) : Option Value :=
  value.descend? ((path.splitOn '.').map Key.ofText)

end Value
end Stencil
