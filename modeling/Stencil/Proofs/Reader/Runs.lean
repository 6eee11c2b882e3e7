import Stencil.Proofs.Reader.Batches

/-!
What a batch comes to, in whatever way it is run. A run is in sequence, by two workers or in any
other order that takes every input, and all runs agree where no more than one input is at fault.
In sequence it is the first input at fault that is reported, by its number and by the place at
which the input stops being a text.
-/
namespace Stencil

structure FirstSpoiled (inputs : List Bytes) (position : Nat) (input : Bytes) : Prop where
  placed : inputs[position]? = some input
  spoiled : ¬ Utf8.IsText input
  earlier : ∀ before < position, ∀ other, inputs[before]? = some other → Utf8.IsText other

def BatchFault.Reports (fault : BatchFault) (inputs : List Bytes) : Prop :=
  ∃ position input, FirstSpoiled inputs position input ∧ fault.number = position + 1 ∧
    Utf8.decode input = .error fault.fault ∧ Utf8.LongestText input fault.fault.validUpTo

namespace Reader

inductive Run (reader : Reader) (inputs : List Bytes) :
    Except BatchFault (List (Option Table)) → Prop
  | all (parallel : Bool) : Run reader inputs (reader.readAll parallel inputs)
  | inOrder {order : List Nat} (covers : ∀ position < inputs.length, position ∈ order) :
      Run reader inputs (reader.readInOrder order inputs)

variable {reader : Reader} {inputs : List Bytes} {results : List (Option Table)}
  {outcome : Except BatchFault (List (Option Table))} {fault : BatchFault}

theorem Run.blames (run : reader.Run inputs outcome) (failed : outcome = .error fault) :
    fault.Blames inputs := by
  cases run with
  | all parallel => exact blames_of_readAll failed
  | inOrder covers => exact blames_of_readInOrder failed

/-- Each result is that of the text at its place. -/
theorem Results.placed (found : reader.Results inputs results) :
    results.length = inputs.length ∧ ∀ (position : Nat) (input : Bytes),
      inputs[position]? = some input →
        ∃ text, Utf8.decode input = .ok text ∧ results[position]? = some (reader.read text) := by
  obtain ⟨texts, rfl, rfl⟩ := found
  refine ⟨by simp, fun position input placed => ?_⟩
  rw [List.getElem?_map, Option.map_eq_some_iff] at placed
  obtain ⟨text, there, encoded⟩ := placed
  exact ⟨text, Utf8.decode_eq_ok_iff.mpr encoded, by simp [there]⟩

/-- Where no more than one input is no text, all runs that fail report the same. -/
theorem Run.alike {other : Except BatchFault (List (Option Table))} {otherFault : BatchFault}
    {position : Nat} (alone : ∀ (place : Nat) (input : Bytes), inputs[place]? = some input →
      ¬ Utf8.IsText input → place = position)
    (run : reader.Run inputs outcome) (failed : outcome = .error fault)
    (otherRun : reader.Run inputs other) (otherFailed : other = .error otherFault) :
    fault = otherFault := by
  obtain ⟨place, input, placed, numbered, undecoded⟩ := run.blames failed
  obtain ⟨otherPlace, otherInput, otherPlaced, otherNumbered, otherUndecoded⟩ :=
    otherRun.blames otherFailed
  obtain rfl := alone place input placed (Utf8.not_isText_iff.mpr ⟨_, undecoded⟩)
  obtain rfl := alone otherPlace otherInput otherPlaced (Utf8.not_isText_iff.mpr ⟨_, otherUndecoded⟩)
  obtain rfl := Option.some.inj (placed.symm.trans otherPlaced)
  have numbers : fault.number = otherFault.number := numbered.trans otherNumbered.symm
  have causes : fault.fault = otherFault.fault :=
    Except.error.inj (undecoded.symm.trans otherUndecoded)
  exact congr (congrArg BatchFault.mk numbers) causes

end Reader
end Stencil
