import Stencil.Value.Table

/-!
Tables as JSON. A table whose keys are exactly the indexes from zero on is an
array, and so is an empty one; any other table is an object with its members
in the order of their names. A floating-point value that is no number, or
infinite, has no JSON form and becomes null.
-/
namespace Stencil

inductive Json where
  | null
  | integer (number : Int64)
  | float (number : Binary64)
  | string (content : Text)
  | array (items : List Json)
  | object (members : List (Text × Json))
  deriving Repr

namespace Json

def ofScalar : Scalar → Json
  | .text content => .string content
  | .integer number => .integer number
  | .float number => if number.isFinite then .float number else .null

def isSequence (keys : List Key) : Bool :=
  keys = (List.range keys.length).map fun position => Key.index (UInt64.ofNat position)

def setMember (name : Text) (value : Json) : List (Text × Json) → List (Text × Json)
  | [] => [(name, value)]
  | (other, held) :: rest =>
      if name = other then (name, value) :: rest
      else if name < other then (name, value) :: (other, held) :: rest
      else (other, held) :: setMember name value rest

-- Two keys with one text would share a member; the later one would stay.
def sortedMembers (entries : List (Key × Json)) : List (Text × Json) :=
  entries.foldl (fun members entry => setMember entry.1.written entry.2 members) []

def ofEntries (entries : List (Key × Json)) : Json :=
  if isSequence (entries.map Prod.fst) then .array (entries.map Prod.snd)
  else .object (sortedMembers entries)

def entriesOf : Table → List (Key × Json)
  | .empty => []
  | .leaf key content rest => (key, ofScalar content) :: entriesOf rest
  | .branch key inner rest => (key, ofEntries (entriesOf inner)) :: entriesOf rest

def ofTable (table : Table) : Json := ofEntries (entriesOf table)

end Json
end Stencil
