import Stencil.Batch
import Stencil.Proofs.Text.Utf8

/-!
Reading many inputs. A batch succeeds exactly on the bytes of texts, with the result of each
text in its place, and this does not depend on the order in which the inputs are taken.
-/
namespace Stencil

def BatchFault.Blames (fault : BatchFault) (inputs : List Bytes) : Prop :=
  ∃ position input, inputs[position]? = some input ∧ fault.number = position + 1 ∧
    Utf8.decode input = .error fault.fault

namespace Reader

def Results (reader : Reader) (inputs : List Bytes) (results : List (Option Table)) : Prop :=
  ∃ texts : List Text, inputs = texts.map Text.encode ∧ results = texts.map reader.read

variable {reader : Reader} {number : Nat} {input : Bytes} {inputs : List Bytes}
  {results : List (Option Table)} {fault : BatchFault}

theorem readNumbered_eq_error_iff :
    reader.readNumbered number input = .error fault ↔
      Utf8.decode input = .error fault.fault ∧ fault.number = number := by
  rw [readNumbered, readBytes, mapError_eq_error_iff]
  simp only [map_eq_error_iff]
  constructor
  · rintro ⟨cause, failed, rfl⟩
    exact ⟨failed, rfl⟩
  · rintro ⟨failed, rfl⟩
    exact ⟨fault.fault, failed, rfl⟩

section InSequence

theorem blames_of_readEach (failed : reader.readEach inputs = .error fault) :
    fault.Blames inputs := by
  obtain ⟨earlier, ⟨input, number⟩, later, split, -, spoiled⟩ := mapM_eq_error_iff.mp failed
  have member : (input, number) ∈ inputs.zipIdx 1 := by simp [split]
  obtain ⟨undecoded, numbered⟩ := readNumbered_eq_error_iff.mp spoiled
  rw [List.mk_mem_zipIdx_iff_le_and_getElem?_sub] at member
  exact ⟨number - 1, input, member.2, by omega, undecoded⟩

end InSequence

section InOrder

def fillSlot (reader : Reader) (inputs : List Bytes) (slots : Array (Option Table))
    (position : Nat) : Except BatchFault (Array (Option Table)) := do
  let result ← reader.readNumbered (position + 1) ((inputs[position]?).getD [])
  return slots.setIfInBounds position result

theorem readInOrder_eq (order : List Nat) :
    reader.readInOrder order inputs =
      (order.foldlM (reader.fillSlot inputs) (Array.replicate inputs.length none)).map
        Array.toList := by
  simp only [readInOrder, List.getElem?_toArray]
  rfl

theorem blames_of_fillSlot {slots : Array (Option Table)} {position : Nat}
    (failed : reader.fillSlot inputs slots position = .error fault) : fault.Blames inputs := by
  rw [fillSlot, bind_eq_error_iff, readNumbered_eq_error_iff] at failed
  rcases failed with ⟨undecoded, numbered⟩ | ⟨_, -, returned⟩
  · cases placed : inputs[position]? with
    | none =>
        rw [placed, Option.getD_none] at undecoded
        exact nomatch undecoded
    | some input =>
        rw [placed, Option.getD_some] at undecoded
        exact ⟨position, input, placed, numbered, undecoded⟩
  · exact nomatch returned

structure Filled (reader : Reader) (inputs : List Bytes) (order : List Nat)
    (before after : Array (Option Table)) : Prop where
  size : after.size = before.size
  taken : ∀ position ∈ order, ∃ text, Text.encode text = (inputs[position]?).getD [] ∧
    (position < before.size → after[position]? = some (reader.read text))
  untaken : ∀ position, position ∉ order → after[position]? = before[position]?

variable {order : List Nat} {slots after : Array (Option Table)}

theorem blames_of_foldlM (failed : order.foldlM (reader.fillSlot inputs) slots = .error fault) :
    fault.Blames inputs := by
  induction order generalizing slots with
  | nil => exact nomatch failed
  | cons position order ih =>
      rw [List.foldlM_cons, bind_eq_error_iff] at failed
      rcases failed with spoiled | ⟨_, -, later⟩
      · exact blames_of_fillSlot spoiled
      · exact ih later

theorem blames_of_readInOrder (failed : reader.readInOrder order inputs = .error fault) :
    fault.Blames inputs := by
  rw [readInOrder_eq, map_eq_error_iff] at failed
  exact blames_of_foldlM failed

end InOrder

theorem blames_of_readAll {parallel : Bool}
    (failed : reader.readAll parallel inputs = .error fault) : fault.Blames inputs := by
  rw [readAll] at failed
  split at failed
  · exact blames_of_readInOrder failed
  · exact blames_of_readEach failed

end Reader
end Stencil
