import Stencil.Reader

/-!
Many inputs at once. The results stand in the order of the inputs, however the
inputs are taken in turn. The first input that is found to be no text stops
the batch; inputs are counted from one.
-/
namespace Stencil

structure BatchFault where
  number : Nat
  fault : Utf8.Fault
  deriving DecidableEq, Repr

namespace BatchFault

def message (fault : BatchFault) : String := s!"Input {fault.number} is not text"

def chain (fault : BatchFault) : List String :=
  [fault.message, fault.fault.refusal, fault.fault.message]

end BatchFault

namespace Reader

def readNumbered (reader : Reader) (number : Nat) (input : Bytes) :
    Except BatchFault (Option Table) :=
  (reader.readBytes input).mapError (BatchFault.mk number)

def readEach (reader : Reader) (inputs : List Bytes) :
    Except BatchFault (List (Option Table)) :=
  (inputs.zipIdx 1).mapM fun entry => reader.readNumbered entry.2 entry.1

def readInOrder (reader : Reader) (order : List Nat) (inputs : List Bytes) :
    Except BatchFault (List (Option Table)) := do
  let store := inputs.toArray
  let slots ← order.foldlM
    (fun (slots : Array (Option Table)) position => do
      let input := (store[position]?).getD []
      let result ← reader.readNumbered (position + 1) input
      return slots.setIfInBounds position result)
    (Array.replicate inputs.length none)
  return slots.toList

/-- The positions as two workers take them, one for each half. -/
def twoWorkers (count : Nat) : List Nat :=
  let half := (count + 1) / 2
  ((List.range half).flatMap fun position => [position, half + position]).filter (· < count)

-- Reads all inputs. A batch of one needs no second worker.
def readAll (reader : Reader) (parallel : Bool) (inputs : List Bytes) :
    Except BatchFault (List (Option Table)) :=
  if parallel ∧ 1 < inputs.length then
    reader.readInOrder (twoWorkers inputs.length) inputs
  else reader.readEach inputs

end Reader
end Stencil
