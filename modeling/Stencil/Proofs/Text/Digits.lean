import Stencil.Text.Digits

/-!
Digits and the number that they spell. Writing the number gives the digits back unless a zero
stands in front of others, and digits behind a number are those of a greater one.
-/
namespace Stencil
namespace Digits
variable {content digits : Text}

def Padded (content : Text) : Prop := content.head? = some '0' ∧ 1 < content.length

section
variable {c : Char}

theorem digit_lt_ten (digit : c.isDigit = true) : c.toNat - '0'.toNat < 10 := by
  obtain ⟨low, high⟩ := isDigit_bounds digit
  have zero : '0'.toNat = 48 := rfl
  omega

theorem digit_pos (digit : c.isDigit = true) (nonzero : c ≠ '0') : 0 < c.toNat - '0'.toNat := by
  obtain ⟨low, high⟩ := isDigit_bounds digit
  have zero : '0'.toNat = 48 := rfl
  have apart : c.toNat ≠ '0'.toNat := fun same => nonzero (Char.toNat_inj.mp same)
  omega

theorem digitChar_of_isDigit (digit : c.isDigit = true) :
    Nat.digitChar (c.toNat - '0'.toNat) = c := by
  obtain ⟨low, high⟩ := isDigit_bounds digit
  have zero : '0'.toNat = 48 := rfl
  apply Char.toNat_inj.mp
  rw [Nat.toNat_digitChar_of_lt_ten (digit_lt_ten digit)]
  omega

theorem written_digit (digit : c.isDigit = true) : written (c.toNat - '0'.toNat) = [c] := by
  rw [written, Nat.toDigits_of_lt_base (digit_lt_ten digit), digitChar_of_isDigit digit]

/-- Another digit is written behind those of a number that is not zero. -/
theorem written_snoc (digit : c.isDigit = true) {number : Nat} (positive : 0 < number) :
    written number ++ [c] = written (10 * number + (c.toNat - '0'.toNat)) := by
  rw [← written_digit digit]
  exact Nat.toDigits_append_toDigits (by decide) positive (digit_lt_ten digit)

end

/-- Further digits are written behind those of a number that is not zero. -/
theorem written_append (all : ∀ c ∈ digits, c.isDigit = true) {number : Nat}
    (positive : 0 < number) :
    written number ++ digits = written (Nat.ofDigitChars 10 digits number) := by
  induction digits generalizing number with
  | nil => rw [List.append_nil, Nat.ofDigitChars_nil]
  | cons c digits ih =>
      obtain ⟨here, further⟩ := List.forall_mem_cons.mp all
      rw [Nat.ofDigitChars_cons, ← ih further (by omega), ← written_snoc here positive,
        List.append_assoc, List.singleton_append]

theorem written_step {number : Nat} (great : 10 ≤ number) :
    written number = written (number / 10) ++ [Nat.digitChar (number % 10)] :=
  Nat.toDigits_of_base_le (by decide) great

theorem not_padded_written (number : Nat) : ¬ Padded (written number) := by
  induction number using Nat.strongRecOn with
  | ind number ih =>
      by_cases small : number < 10
      · rw [written, Nat.toDigits_of_lt_base small]
        simp [Padded]
      · have great := Nat.le_of_not_lt small
        rw [written_step great]
        rintro ⟨first, -⟩
        obtain ⟨c, rest, split⟩ := List.exists_cons_of_ne_nil (written_ne_nil (number / 10))
        obtain rfl : c = '0' := by simpa [split] using first
        -- Only zero itself is written with a zero in front, and then nothing is behind it.
        cases rest with
        | nil =>
            have none : number / 10 = 0 := by rw [← value_written (number / 10), split]; rfl
            omega
        | cons other rest => exact ih (number / 10) (by omega) (by simp [Padded, split])

theorem written_value_cons {c : Char} {rest : Text} (nonzero : c ≠ '0')
    (all : ∀ other ∈ c :: rest, other.isDigit = true) :
    written (value (c :: rest)) = c :: rest := by
  obtain ⟨here, further⟩ := List.forall_mem_cons.mp all
  rw [value, Nat.ofDigitChars_cons, Nat.mul_zero, Nat.zero_add,
    ← written_append further (digit_pos here nonzero), written_digit here, List.singleton_append]

/-- Digits are written back from their value unless they are padded. -/
theorem written_value_iff (digits : isDigits content = true) :
    written (value content) = content ↔ ¬ Padded content := by
  constructor
  · intro same padded
    rw [← same] at padded
    exact not_padded_written _ padded
  · intro bare
    obtain ⟨nonempty, all⟩ := isDigits_iff.mp digits
    obtain ⟨c, rest, rfl⟩ := List.exists_cons_of_ne_nil nonempty
    by_cases zero : c = '0'
    · subst zero
      -- Nothing is behind a zero that pads nothing.
      have alone : rest = [] := by
        cases rest with
        | nil => rfl
        | cons other rest => exact absurd ⟨rfl, by simp⟩ bare
      rw [alone]
      rfl
    · exact written_value_cons zero all

theorem digit_or_minus_of_mem {number : Int} {c : Char} (member : c ∈ writtenInt number) :
    c.isDigit = true ∨ c = '-' := by
  cases number with
  | ofNat magnitude => exact Or.inl (isDigit_of_mem_written member)
  | negSucc below =>
      rcases List.mem_cons.mp member with rfl | among
      · exact Or.inr rfl
      · exact Or.inl (isDigit_of_mem_written among)

end Digits
end Stencil
