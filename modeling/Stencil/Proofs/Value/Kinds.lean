import Stencil.Proofs.Expression.Ways
import Stencil.Proofs.Number.Overflow
import Stencil.Proofs.Text.Digits
import Stencil.Proofs.Value.Casting

/-!
What digits alone and digits around a point are cast to. Digits make an integer unless they are
padded with zeros or beyond 64 bits, and never a floating-point number; digits around a point
make a floating-point number unless rounding gives infinity, and never an integer.
-/
namespace Stencil

def DecimalLiteral.pointed (whole fraction : Text) : DecimalLiteral :=
  ⟨false, Digits.value (whole ++ fraction), -fraction.length⟩

section
variable {whole fraction : Text}

theorem DecimalLiteral.spells_pointed (wholeDigits : ∀ c ∈ whole, c.isDigit = true)
    (fractionDigits : ∀ c ∈ fraction, c.isDigit = true)
    (nonempty : ¬ (whole = [] ∧ fraction = [])) :
    (pointed whole fraction).Spells (whole ++ '.' :: fraction) := by
  have body : Body (whole ++ '.' :: fraction) whole fraction := by
    by_cases bare : whole = []
    · subst bare
      exact .fraction (Digits.isDigits_iff.mpr ⟨fun none => nonempty ⟨rfl, none⟩, fractionDigits⟩)
    · exact .point (Digits.isDigits_iff.mpr ⟨bare, wholeDigits⟩) fractionDigits
  simpa [pointed] using Spells.parts .none body .none

def Overflows (whole fraction : Text) : Prop :=
  tenTo fraction.length * Binary64.overflowBound ≤ Digits.value (whole ++ fraction)

theorem DecimalLiteral.isFinite_pointed_iff :
    (pointed whole fraction).value.isFinite = true ↔ ¬ Overflows whole fraction := by
  have up : (-(fraction.length : Int)).toNat = 0 := by omega
  have down : (-(-(fraction.length : Int))).toNat = fraction.length := by omega
  have one : tenTo 0 = 1 := rfl
  rw [value, pointed, Binary64.isFinite_ofDecimal_iff, up, down, one, Nat.mul_one, Overflows,
    Nat.not_le]

end

namespace Scalar
variable {content whole fraction : Text}

theorem isInteger_iff_of_isDigits (digits : Digits.isDigits content = true) :
    IsInteger content ↔ ¬ Digits.Padded content ∧ Digits.value content ≤ 9223372036854775807 := by
  rw [← Digits.written_value_iff digits]
  constructor
  · rintro ⟨number, same⟩
    have most : number.toInt ≤ 9223372036854775807 := number.toInt_le
    cases signed : number.toInt with
    | ofNat magnitude =>
        rw [signed] at same most
        have written : Digits.written magnitude = content := same
        rw [← written, Digits.value_written]
        exact ⟨rfl, Int.ofNat_le.mp most⟩
    | negSucc below =>
        rw [signed] at same
        have minus : '-' ∈ content := by
          rw [← same]
          exact List.mem_cons_self
        exact absurd ((Digits.isDigits_iff.mp digits).2 '-' minus) (by decide)
  · rintro ⟨same, small⟩
    have back : (Int64.ofInt (Digits.value content)).toInt = Digits.value content :=
      Int64.toInt_ofInt_of_le (by omega) (by omega)
    exact ⟨Int64.ofInt (Digits.value content), by rw [back]; exact same⟩

structure CastDigits (content : Text) (scalar : Scalar) : Prop where
  no_float : ∀ number, scalar ≠ .float number
  kept : (∃ number : Int64, scalar = .integer number ∧ Digits.writtenInt number.toInt = content) ∨
    scalar = .text content
  text_iff : scalar = .text content ↔
    Digits.Padded content ∨ 9223372036854775807 < Digits.value content

theorem castDigits_ofText (digits : Digits.isDigits content = true) :
    CastDigits content (ofText content) := by
  have integral := isInteger_iff_of_isDigits digits
  have casting := casting_ofText content
  generalize ofText content = scalar at casting
  cases casting with
  | @integer number same =>
      obtain ⟨bare, small⟩ := integral.mp ⟨number, same⟩
      constructor
      case no_float => simp
      case kept => exact Or.inl ⟨number, rfl, same⟩
      case text_iff => simp [bare, Nat.not_lt.mpr small]
  | digits apart =>
      constructor
      case no_float => simp
      case kept => exact Or.inr rfl
      case text_iff =>
        refine iff_of_true rfl ?_
        by_cases padded : Digits.Padded content
        · exact Or.inl padded
        · exact Or.inr (Nat.lt_of_not_le fun small => apart (integral.mpr ⟨padded, small⟩))
  | float apart undigital => simp [digits] at undigital
  | other apart undigital => simp [digits] at undigital

theorem not_isInteger_of_point (point : '.' ∈ content) : ¬ IsInteger content := by
  rintro ⟨number, rfl⟩
  rcases Digits.digit_or_minus_of_mem point with digit | minus
  · exact absurd digit (by decide)
  · exact absurd minus (by decide)

theorem not_isDigits_of_point (point : '.' ∈ content) : Digits.isDigits content = false := by
  rw [← Bool.not_eq_true, Digits.isDigits_iff]
  exact fun digits => absurd (digits.2 '.' point) (by decide)

def Overflowing (content : Text) : Prop :=
  ∃ whole fraction, content = whole ++ '.' :: fraction ∧
    (∀ c ∈ whole ++ fraction, c.isDigit = true) ∧ Overflows whole fraction

-- The digits before a point end at the point.
theorem overflowing_iff (wholeDigits : ∀ c ∈ whole, c.isDigit = true)
    (fractionDigits : ∀ c ∈ fraction, c.isDigit = true) :
    Overflowing (whole ++ '.' :: fraction) ↔ Overflows whole fraction := by
  constructor
  · rintro ⟨front, back, same, digits, overflows⟩
    obtain rfl : whole = front :=
      stretch_unique wholeDigits (fun c member => digits c (List.mem_append_left _ member))
        (by decide) (by decide) same
    obtain rfl : fraction = back := by simpa using same
    exact overflows
  · exact fun overflows =>
      ⟨whole, fraction, rfl, List.forall_mem_append.mpr ⟨wholeDigits, fractionDigits⟩, overflows⟩

structure CastDecimal (content : Text) (scalar : Scalar) : Prop where
  no_integer : ∀ number, scalar ≠ .integer number
  kept : (∃ number, scalar = .float number) ∨ scalar = .text content
  text_iff : scalar = .text content ↔ Overflowing content

theorem castDecimal_ofText (wholeDigits : ∀ c ∈ whole, c.isDigit = true)
    (fractionDigits : ∀ c ∈ fraction, c.isDigit = true)
    (nonempty : ¬ (whole = [] ∧ fraction = [])) :
    CastDecimal (whole ++ '.' :: fraction) (ofText (whole ++ '.' :: fraction)) := by
  have point : '.' ∈ whole ++ '.' :: fraction := by simp
  have beyond := overflowing_iff wholeDigits fractionDigits
  have spelled := DecimalLiteral.spells_pointed wholeDigits fractionDigits nonempty
  have casting := casting_ofText (whole ++ '.' :: fraction)
  generalize ofText (whole ++ '.' :: fraction) = scalar at casting
  cases casting with
  | integer same => exact absurd ⟨_, same⟩ (not_isInteger_of_point point)
  | digits _ all => simp [not_isDigits_of_point point] at all
  | @float number _ _ spelledFinite =>
      obtain ⟨finite, literal, otherSpelled, rfl⟩ := spelledFinite
      have same : literal = .pointed whole fraction := by
        rw [← DecimalLiteral.ofText?_eq_some_iff] at spelled otherSpelled
        exact Option.some.inj (otherSpelled.symm.trans spelled)
      rw [same, DecimalLiteral.isFinite_pointed_iff] at finite
      constructor
      case no_integer => simp
      case kept => exact Or.inl ⟨_, rfl⟩
      case text_iff => simp [beyond, finite]
  | other _ _ unspelled =>
      have overflows : Overflows whole fraction := Classical.not_not.mp fun finite =>
        unspelled _ ⟨DecimalLiteral.isFinite_pointed_iff.mpr finite, _, spelled, rfl⟩
      constructor
      case no_integer => simp
      case kept => exact Or.inr rfl
      case text_iff => exact iff_of_true rfl (beyond.mpr overflows)

end Scalar
end Stencil
