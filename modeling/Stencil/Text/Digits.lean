import Stencil.Text.Basic

/-!
Decimal digits of natural numbers and integers. Only the ten ASCII digits
count as digits. A text is the canonical form of a number when writing the
number gives the text back: no sign other than a needed minus, no leading zero.
-/
namespace Stencil.Digits

def isDigits (content : Text) : Bool := !content.isEmpty && content.all Char.isDigit

def value (content : Text) : Nat := Nat.ofDigitChars 10 content 0

def written (number : Nat) : Text := Nat.toDigits 10 number

def writtenInt : Int → Text
  | .ofNat number => written number
  | .negSucc below => '-' :: written (below + 1)

theorem isDigits_iff {content : Text} :
    isDigits content = true ↔ content ≠ [] ∧ ∀ c ∈ content, c.isDigit = true := by
  simp [isDigits, List.all_eq_true]

theorem isDigit_bounds {c : Char} (digit : c.isDigit = true) : 48 ≤ c.toNat ∧ c.toNat ≤ 57 := by
  simp only [Char.isDigit, Bool.and_eq_true, decide_eq_true_eq, ge_iff_le,
    UInt32.le_iff_toNat_le] at digit
  exact digit

@[simp] theorem value_written (number : Nat) : value (written number) = number :=
  Nat.ofDigitChars_ten_toDigits

theorem written_ne_nil (number : Nat) : written number ≠ [] := Nat.toDigits_ne_nil

theorem isDigit_of_mem_written {number : Nat} {c : Char} (within : c ∈ written number) :
    c.isDigit = true :=
  Nat.isDigit_of_mem_toDigits (by decide) (by decide) within

theorem isDigits_written (number : Nat) : isDigits (written number) = true :=
  isDigits_iff.mpr ⟨written_ne_nil number, fun _ => isDigit_of_mem_written⟩

end Stencil.Digits
