import Stencil.Proofs.Number.Spelling
import Stencil.Value.Scalar

/-!
Which type a text gets, said by its spelling alone: integers are the texts that writing
some 64-bit integer gives, other runs of digits stay texts, decimal literals of a finite
value are floating-point numbers, and everything else stays text. Texts and integers keep
the spelling of what they came from; only a floating-point number, which is always finite,
may be written otherwise.
-/
namespace Stencil
namespace Digits

theorem writtenInt_of_canonicalInt? {content : Text} {number : Int}
    (read : canonicalInt? content = some number) : writtenInt number = content := by
  unfold canonicalInt? at read
  split at read
  simp only [Option.ite_none_right_eq_some, Option.some.injEq] at read
  obtain ⟨-, same, rfl⟩ := read
  exact same

theorem canonicalInt?_of_unsigned {content : Text} (unsigned : content.head? ≠ some '-')
    (digits : isDigits content = true)
    (canonical : writtenInt (value content) = content) :
    canonicalInt? content = some (value content : Int) := by
  unfold canonicalInt?
  split
  next negative magnitude sign =>
    split at sign
    · exact (unsigned rfl).elim
    · obtain ⟨rfl, rfl⟩ := Prod.mk.inj sign
      simp [digits, canonical]

/-- Every integer is read back from its text. -/
theorem canonicalInt?_writtenInt (number : Int) :
    canonicalInt? (writtenInt number) = some number := by
  cases number with
  | ofNat magnitude =>
      have digits := isDigits_written magnitude
      have unsigned : (written magnitude).head? ≠ some '-' := fun minus =>
        (DecimalLiteral.unsigned_of_isDigits digits [] '-' (by simpa using minus)).2 rfl
      have back : writtenInt (value (written magnitude)) = written magnitude := by
        rw [value_written]
        rfl
      rw [writtenInt, canonicalInt?_of_unsigned unsigned digits back, value_written]
      rfl
  | negSucc below =>
      have back : -((below + 1 : Nat) : Int) = Int.negSucc below := rfl
      simp only [writtenInt, canonicalInt?, isDigits_written, value_written, ↓reduceIte, back]

theorem canonicalInt?_eq_some_iff {content : Text} {number : Int} :
    canonicalInt? content = some number ↔ writtenInt number = content := by
  constructor
  · exact writtenInt_of_canonicalInt?
  · rintro rfl
    exact canonicalInt?_writtenInt number

end Digits

namespace Scalar
variable {content : Text}

def IsInteger (content : Text) : Prop :=
  ∃ number : Int64, Digits.writtenInt number.toInt = content

theorem writtenInt_of_integer? {number : Int64} (read : integer? content = some number) :
    Digits.writtenInt number.toInt = content := by
  unfold integer? at read
  cases canonical : Digits.canonicalInt? content with
  | none => simp [canonical] at read
  | some value =>
      simp only [canonical, Option.ite_none_right_eq_some, Option.some.injEq] at read
      obtain ⟨⟨low, high⟩, rfl⟩ := read
      have back : (Int64.ofInt value).toInt = value := by
        apply Int64.toInt_ofInt_of_le low
        exact Int.lt_of_le_of_lt high (by decide)
      rw [back, Digits.writtenInt_of_canonicalInt? canonical]

theorem integer?_eq_some_iff {number : Int64} :
    integer? content = some number ↔ Digits.writtenInt number.toInt = content := by
  constructor
  · exact writtenInt_of_integer?
  · intro same
    have canonical := Digits.canonicalInt?_eq_some_iff.mpr same
    simp only [integer?, canonical]
    rw [if_pos ⟨number.minValue_le_toInt, number.toInt_le⟩, Int64.ofInt_toInt]

theorem integer?_eq_none_iff : integer? content = none ↔ ¬ IsInteger content := by
  simp [Option.eq_none_iff_forall_ne_some, integer?_eq_some_iff, IsInteger]

def SpellsFinite (content : Text) (number : Binary64) : Prop :=
  number.isFinite = true ∧
    ∃ literal : DecimalLiteral, literal.Spells content ∧ literal.value = number

theorem float?_eq_some_iff {number : Binary64} :
    float? content = some number ↔ SpellsFinite content number := by
  unfold float?
  constructor
  · intro read
    cases found : DecimalLiteral.ofText? content with
    | none => simp [found] at read
    | some literal =>
        simp only [found, Option.ite_none_right_eq_some, Option.some.injEq] at read
        obtain ⟨finite, rfl⟩ := read
        exact ⟨finite, literal, DecimalLiteral.ofText?_eq_some_iff.mp found, rfl⟩
  · rintro ⟨finite, literal, spelled, rfl⟩
    simp only [DecimalLiteral.ofText?_eq_some_iff.mpr spelled]
    rw [if_pos finite]

theorem float?_eq_none_iff :
    float? content = none ↔ ∀ number, ¬ SpellsFinite content number := by
  simp [Option.eq_none_iff_forall_ne_some, float?_eq_some_iff]

theorem integer_unique {number other : Int64} (same : Digits.writtenInt number.toInt = content)
    (otherSame : Digits.writtenInt other.toInt = content) : number = other := by
  rw [← integer?_eq_some_iff] at same otherSame
  exact Option.some.inj (same.symm.trans otherSame)

theorem SpellsFinite.unique {number other : Binary64} (spelled : SpellsFinite content number)
    (otherSpelled : SpellsFinite content other) : number = other := by
  rw [← float?_eq_some_iff] at spelled otherSpelled
  exact Option.some.inj (spelled.symm.trans otherSpelled)

theorem SpellsFinite.not_isNaN {number : Binary64} (spelled : SpellsFinite content number) :
    number.isNaN = false := by
  have finite := spelled.1
  simp only [Binary64.isFinite, Binary64.isNaN, decide_eq_true_eq, decide_eq_false_iff_not]
    at finite ⊢
  omega

/-- The first of these rules that applies to a text tells what it is cast to. -/
inductive Casting (content : Text) : Scalar → Prop
  | integer {number : Int64} (same : Digits.writtenInt number.toInt = content) :
      Casting content (.integer number)
  | digits (apart : ¬ IsInteger content) (digits : Digits.isDigits content = true) :
      Casting content (.text content)
  | float {number : Binary64} (apart : ¬ IsInteger content)
      (undigital : Digits.isDigits content = false) (spelled : SpellsFinite content number) :
      Casting content (.float number)
  | other (apart : ¬ IsInteger content) (undigital : Digits.isDigits content = false)
      (unspelled : ∀ number, ¬ SpellsFinite content number) : Casting content (.text content)

theorem casting_ofText (content : Text) : Casting content (ofText content) := by
  unfold ofText
  cases read : integer? content with
  | some number => exact .integer (integer?_eq_some_iff.mp read)
  | none =>
      have apart := integer?_eq_none_iff.mp read
      cases digits : Digits.isDigits content with
      | true => exact .digits apart digits
      | false =>
          cases point : float? content with
          | some number => exact .float apart digits (float?_eq_some_iff.mp point)
          | none => exact .other apart digits (float?_eq_none_iff.mp point)

/-- What is no floating-point number is written as the text that it came from. -/
theorem written_ofText (exact : ∀ number, ofText content ≠ .float number) :
    (ofText content).written = content := by
  have casting := casting_ofText content
  generalize ofText content = scalar at casting exact
  cases casting with
  | integer same => exact same
  | digits => rfl
  | @float number => exact absurd rfl (exact number)
  | other => rfl

theorem isFinite_of_ofText {number : Binary64} (float : ofText content = .float number) :
    number.isFinite = true := by
  have casting := casting_ofText content
  rw [float] at casting
  cases casting with
  | float _ _ spelled => exact spelled.1

/-- Each type of scalar comes from exactly the texts of one spelling, and only a
floating-point number, which is always finite, may be written otherwise than its text. -/
structure Casts (content : Text) (scalar : Scalar) : Prop where
  integer_iff : ∀ number : Int64,
    scalar = .integer number ↔ Digits.writtenInt number.toInt = content
  float_iff : ∀ number, scalar = .float number ↔
    ¬ IsInteger content ∧ Digits.isDigits content = false ∧ SpellsFinite content number
  text_iff : ∀ kept, scalar = .text kept ↔ kept = content ∧ ¬ IsInteger content ∧
    (Digits.isDigits content = true ∨ ∀ number, ¬ SpellsFinite content number)
  finite : ∀ number, scalar = .float number → number.isFinite = true ∧ number.isNaN = false
  written_back : (∀ number, scalar ≠ .float number) → scalar.written = content

theorem casts_ofText (content : Text) : Casts content (ofText content) := by
  have casting := casting_ofText content
  have back : (∀ number, ofText content ≠ .float number) → (ofText content).written = content :=
    written_ofText
  generalize ofText content = scalar at casting back
  cases casting with
  | @integer number same =>
      have spelled : IsInteger content := ⟨number, same⟩
      constructor
      case integer_iff =>
        intro other
        constructor
        · rintro ⟨⟩
          exact same
        · exact fun otherSame => congrArg Scalar.integer (integer_unique same otherSame)
      case written_back => exact back
      all_goals simp [spelled]
  | digits apart digits =>
      constructor
      case integer_iff => simpa [IsInteger] using apart
      case text_iff => simpa [apart, digits] using fun kept => eq_comm
      case written_back => exact back
      all_goals simp [digits]
  | @float number apart undigital spelled =>
      constructor
      case integer_iff => simpa [IsInteger] using apart
      case float_iff =>
        intro other
        constructor
        · rintro ⟨⟩
          exact ⟨apart, undigital, spelled⟩
        · rintro ⟨-, -, otherSpelled⟩
          exact congrArg Scalar.float (spelled.unique otherSpelled)
      case text_iff =>
        have some : ¬ ∀ number, ¬ SpellsFinite content number := fun none => none number spelled
        simp [undigital, some]
      case finite =>
        rintro _ ⟨⟩
        exact ⟨spelled.1, spelled.not_isNaN⟩
      case written_back => exact back
  | other apart undigital unspelled =>
      constructor
      case integer_iff => simpa [IsInteger] using apart
      case float_iff => simp [unspelled]
      case text_iff => simpa [apart, unspelled] using fun kept => eq_comm
      case written_back => exact back
      all_goals simp

-- A minus before zero is in no integer's text.
example : ofText "-0".toList = .float ⟨0x8000000000000000⟩ := by decide +kernel

end Scalar
end Stencil
