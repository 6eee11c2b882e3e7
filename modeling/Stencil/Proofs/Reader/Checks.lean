import Stencil.Proofs.Steps
import Stencil.Proofs.Value.Records
import Stencil.Reader

/-!
What the checks on a template come to: there has to be a tag, no key may name both a
value and a table around other values, and the matcher has to take the pattern. A
template that passes gives a reader, and every other fault is one of reading it.
-/
namespace Stencil

namespace Template
variable {refusal? : Pattern → Option Refusal} {template : Template}

def Conflicting (template : Template) : Prop :=
  ∃ tag ∈ template.tags, ∃ other ∈ template.tags,
    tag.key.segments <+: other.key.segments ∧ tag.key.segments ≠ other.key.segments

theorem not_conflicting_iff :
    ¬ template.Conflicting ↔ PrefixFree (template.tags.map Tag.key) := by
  rw [PrefixFree]
  simp only [List.forall_mem_map, Conflicting, Path.isParentOf_iff, not_exists, not_and]

theorem firstConflict?_tags_iff :
    firstConflict? (template.tags.map Tag.key) = none ↔ ¬ template.Conflicting := by
  rw [firstConflict?_eq_none_iff, not_conflicting_iff]

inductive Verdict (refusal? : Pattern → Option Refusal) (template : Template) :
    Except ReaderFault Unit → Prop
  | untagged (none : template.tags = []) : Verdict refusal? template (.error .noTags)
  | conflicting {path : Path} (conflict : template.Conflicting) :
      Verdict refusal? template (.error (.conflictingKey path))
  | refused {refusal : Refusal} {fault : ReaderFault} (tagged : template.tags ≠ [])
      (apart : ¬ template.Conflicting) (refused : refusal? template.pattern = some refusal)
      (reported : .ofRefusal refusal = fault) : Verdict refusal? template (.error fault)
  | passed (tagged : template.tags ≠ []) (apart : ¬ template.Conflicting)
      (taken : refusal? template.pattern = none) : Verdict refusal? template (.ok ())

theorem verdict_check (refusal? : Pattern → Option Refusal) (template : Template) :
    Verdict refusal? template (template.check refusal?) := by
  unfold check
  split
  next none => exact .untagged none
  next tagged =>
    cases found : firstConflict? (template.tags.map Tag.key) with
    | some path =>
        refine .conflicting (Classical.not_not.mp fun apart => ?_)
        simp [firstConflict?_tags_iff.mpr apart] at found
    | none =>
        have apart := firstConflict?_tags_iff.mp found
        cases answer : refusal? template.pattern with
        | some refusal => exact .refused tagged apart answer rfl
        | none => exact .passed tagged apart answer

theorem Conflicting.tagged (conflict : template.Conflicting) : template.tags ≠ [] := by
  obtain ⟨tag, placed, -⟩ := conflict
  exact List.ne_nil_of_mem placed

theorem check_eq_noTags_iff : template.check refusal? = .error .noTags ↔ template.tags = [] := by
  have verdict := verdict_check refusal? template
  generalize template.check refusal? = result at verdict
  cases verdict with
  | untagged none => simp [none]
  | conflicting conflict => simp [conflict.tagged]
  | refused tagged _ _ reported => simp [← reported, tagged]
  | passed tagged => simp [tagged]

theorem exists_check_eq_conflictingKey_iff :
    (∃ path, template.check refusal? = .error (.conflictingKey path)) ↔
      template.Conflicting := by
  have verdict := verdict_check refusal? template
  generalize template.check refusal? = result at verdict
  cases verdict with
  | untagged none => simp [Conflicting, none]
  | conflicting conflict => simp [conflict]
  | refused _ apart _ reported => simp [← reported, apart]
  | passed _ apart => simp [apart]

/-- Neither the number of tags nor the pattern has a say in which conflict is found. -/
theorem check_eq_conflictingKey_iff {path : Path} :
    template.check refusal? = .error (.conflictingKey path) ↔
      firstConflict? (template.tags.map Tag.key) = some path := by
  unfold check
  split
  next none => simp [none, firstConflict?]
  next tagged =>
    cases firstConflict? (template.tags.map Tag.key) with
    | some found => simp
    | none => cases refusal? template.pattern <;> simp

theorem check_eq_ofRefusal_iff {refusal : Refusal} :
    template.check refusal? = .error (.ofRefusal refusal) ↔
      template.tags ≠ [] ∧ ¬ template.Conflicting ∧
        refusal? template.pattern = some refusal := by
  have verdict := verdict_check refusal? template
  generalize template.check refusal? = result at verdict
  cases verdict with
  | untagged none => simp [none]
  | conflicting conflict => simp [conflict]
  | refused tagged apart refused reported => simp [← reported, tagged, apart, refused]
  | passed _ _ taken => simp [taken]

theorem check_eq_ok_iff :
    template.check refusal? = .ok () ↔
      template.tags ≠ [] ∧ ¬ template.Conflicting ∧ refusal? template.pattern = none := by
  have verdict := verdict_check refusal? template
  generalize template.check refusal? = result at verdict
  cases verdict with
  | untagged none => simp [none]
  | conflicting conflict => simp [conflict]
  | refused _ _ refused => simp [refused]
  | passed tagged apart taken => simp [tagged, apart, taken]

theorem check_ne_template {fault : TemplateFault} :
    template.check refusal? ≠ .error (.template fault) := by
  have verdict := verdict_check refusal? template
  generalize template.check refusal? = result at verdict
  cases verdict with
  | refused _ _ _ reported => simp [← reported]
  | _ => simp

end Template

namespace Reader
section
variable {refusal? : Pattern → Option Refusal} {source : Text}

theorem compile_eq_error_iff {fault : ReaderFault} :
    compile refusal? source = .error fault ↔
      (∃ cause, Template.ofText source = .error cause ∧ .template cause = fault) ∨
        ∃ template, Template.ofText source = .ok template ∧
          template.check refusal? = .error fault := by
  rw [compile, bind_eq_error_iff, mapError_eq_error_iff]
  simp only [mapError_eq_ok_iff, bind_eq_error_iff, pure, Except.pure, reduceCtorEq, and_false,
    exists_false, or_false]

theorem compile_eq_ok_iff {reader : Reader} :
    compile refusal? source = .ok reader ↔
      ∃ template, Template.ofText source = .ok template ∧ template.check refusal? = .ok () ∧
        reader = ⟨source, template⟩ := by
  rw [compile, bind_eq_ok_iff]
  simp only [mapError_eq_ok_iff, bind_eq_ok_iff, pure, Except.pure, Except.ok.injEq]
  constructor
  · rintro ⟨template, read, ⟨⟩, passed, rfl⟩
    exact ⟨template, read, passed, rfl⟩
  · rintro ⟨template, read, passed, rfl⟩
    exact ⟨template, read, (), passed, rfl⟩

/-- The fault of a template that can be read comes from the checks. -/
theorem compile_eq_checked_iff {fault : ReaderFault}
    (checked : ∀ cause, .template cause ≠ fault) :
    compile refusal? source = .error fault ↔
      ∃ template, Template.ofText source = .ok template ∧
        template.check refusal? = .error fault := by
  simp [compile_eq_error_iff, checked]

end
end Reader
end Stencil
