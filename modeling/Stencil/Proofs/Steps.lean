/-!
Steps that may fail, one after the other. A sequence of steps succeeds exactly
when each of them does, and every proof about a reading takes it apart by that.
-/
namespace Stencil
section
variable {Fault Other First Second : Type}

theorem bind_eq_ok_iff {step : Except Fault First} {next : First → Except Fault Second}
    {result : Second} :
    step >>= next = .ok result ↔ ∃ first, step = .ok first ∧ next first = .ok result := by
  cases step with
  | error fault => simp [bind, Except.bind]
  | ok first => simp [bind, Except.bind]

theorem bind_eq_error_iff {step : Except Fault First} {next : First → Except Fault Second}
    {fault : Fault} :
    step >>= next = .error fault ↔
      step = .error fault ∨ ∃ first, step = .ok first ∧ next first = .error fault := by
  cases step with
  | error fault => simp [bind, Except.bind]
  | ok first => simp [bind, Except.bind]

theorem map_eq_ok_iff {step : Except Fault First} {change : First → Second} {result : Second} :
    step.map change = .ok result ↔ ∃ first, step = .ok first ∧ change first = result := by
  cases step <;> simp [Except.map]

theorem map_eq_error_iff {step : Except Fault First} {change : First → Second} {fault : Fault} :
    step.map change = .error fault ↔ step = .error fault := by
  cases step <;> simp [Except.map]

theorem mapError_eq_ok_iff {step : Except Fault First} {change : Fault → Other}
    {result : First} : step.mapError change = .ok result ↔ step = .ok result := by
  cases step with
  | error fault => exact ⟨fun failed => (nomatch failed), fun failed => (nomatch failed)⟩
  | ok first => exact ⟨fun same => congrArg Except.ok (Except.ok.inj same),
      fun same => congrArg Except.ok (Except.ok.inj same)⟩

theorem mapError_eq_error_iff {step : Except Fault First} {change : Fault → Other} {fault : Other} :
    step.mapError change = .error fault ↔ ∃ cause, step = .error cause ∧ change cause = fault := by
  cases step with
  | error cause =>
      constructor
      · intro same
        exact ⟨cause, rfl, Except.error.inj same⟩
      · rintro ⟨other, same, rfl⟩
        obtain rfl := Except.error.inj same
        rfl
  | ok first =>
      constructor
      · intro failed
        exact nomatch failed
      · rintro ⟨_, failed, -⟩
        exact nomatch failed

-- A success can be computed with where a comparison of faults is of no use.
theorem toOption_eq_some_iff {step : Except Fault First} {result : First} :
    step.toOption = some result ↔ step = .ok result := by
  cases step with
  | error fault => exact ⟨fun failed => (nomatch failed), fun failed => (nomatch failed)⟩
  | ok first => exact ⟨fun same => congrArg Except.ok (Option.some.inj same),
      fun same => congrArg some (Except.ok.inj same)⟩

def fault? : Except Fault First → Option Fault
  | .error fault => some fault
  | .ok _ => none

theorem fault?_eq_some_iff {step : Except Fault First} {fault : Fault} :
    fault? step = some fault ↔ step = .error fault := by
  cases step <;> simp [fault?]

theorem mapM_cons_eq_ok_iff {read : First → Except Fault Second} {first : First}
    {rest : List First} {results : List Second} :
    (first :: rest).mapM read = .ok results ↔
      ∃ result others, read first = .ok result ∧ rest.mapM read = .ok others ∧
        results = result :: others := by
  simp only [List.mapM_cons, bind_eq_ok_iff, pure, Except.pure, Except.ok.injEq]
  constructor
  · rintro ⟨result, one, others, more, rfl⟩
    exact ⟨result, others, one, more, rfl⟩
  · rintro ⟨result, others, one, more, rfl⟩
    exact ⟨result, one, others, more, rfl⟩

/-- Of several steps the first one that fails is reported. -/
theorem mapM_eq_error_iff {read : First → Except Fault Second} {items : List First}
    {fault : Fault} :
    items.mapM read = .error fault ↔ ∃ earlier item later, items = earlier ++ item :: later ∧
      (∀ other ∈ earlier, ∃ result, read other = .ok result) ∧ read item = .error fault := by
  induction items with
  | nil => simp [pure, Except.pure]
  | cons first rest ih =>
      rw [List.mapM_cons, bind_eq_error_iff]
      constructor
      · rintro (failed | ⟨result, one, further⟩)
        · exact ⟨[], first, rest, rfl, by simp, failed⟩
        · rcases bind_eq_error_iff.mp further with failed | ⟨_, -, built⟩
          · obtain ⟨earlier, item, later, rfl, fine, failed⟩ := ih.mp failed
            refine ⟨first :: earlier, item, later, rfl, ?_, failed⟩
            simpa using ⟨⟨result, one⟩, fine⟩
          · exact nomatch built
      · rintro ⟨_ | ⟨head, earlier⟩, item, later, same, fine, failed⟩
        · obtain ⟨rfl, rfl⟩ := List.cons.inj same
          exact Or.inl failed
        · obtain ⟨rfl, rfl⟩ := List.cons.inj same
          rw [List.forall_mem_cons] at fine
          obtain ⟨⟨result, one⟩, fine⟩ := fine
          have further := ih.mpr ⟨earlier, item, later, rfl, fine, failed⟩
          exact Or.inr ⟨result, one, bind_eq_error_iff.mpr (Or.inl further)⟩

end
end Stencil
