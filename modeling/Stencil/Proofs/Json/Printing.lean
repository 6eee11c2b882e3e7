import Stencil.Json.Printer

/-!
Documents on one line. Whatever the strings and names of a JSON tree hold, its compact text
has no character below the space, so no line break and no other control character.
-/
namespace Stencil

/-- No character comes before the space, so that the text stays on one line. -/
def Text.Inline (content : Text) : Prop := ∀ c ∈ content, ' ' ≤ c

namespace Text

@[simp] theorem inline_nil : Inline [] := by simp [Inline]

@[simp] theorem inline_cons {c : Char} {rest : Text} :
    Inline (c :: rest) ↔ ' ' ≤ c ∧ Inline rest := by
  simp [Inline]

@[simp] theorem inline_append {front back : Text} :
    Inline (front ++ back) ↔ Inline front ∧ Inline back := by
  simp only [Inline, List.forall_mem_append]

theorem Inline.subset {content part : Text} (inline : Inline content) (within : part ⊆ content) :
    Inline part :=
  fun c member => inline c (within member)

theorem Inline.take {content : Text} (inline : Inline content) (count : Nat) :
    Inline (content.take count) := inline.subset (List.take_subset count content)

theorem Inline.drop {content : Text} (inline : Inline content) (count : Nat) :
    Inline (content.drop count) := inline.subset (List.drop_subset count content)

theorem inline_replicate {c : Char} (visible : ' ' ≤ c) (count : Nat) :
    Inline (List.replicate count c) := by
  intro other member
  rwa [List.eq_of_mem_replicate member]

theorem Inline.newline_not_mem {content : Text} (inline : Inline content) : '\n' ∉ content :=
  fun member => absurd (inline '\n' member) (by decide)

end Text

namespace Digits

theorem inline_written (number : Nat) : Text.Inline (written number) := by
  intro c member
  have digit := isDigit_of_mem_written member
  simp only [Char.isDigit, Bool.and_eq_true, decide_eq_true_eq] at digit
  exact Char.le_trans (by decide) digit.1

theorem inline_writtenInt (number : Int) : Text.Inline (writtenInt number) := by
  cases number with
  | ofNat magnitude => exact inline_written magnitude
  | negSucc below => exact Text.inline_cons.mpr ⟨by decide, inline_written _⟩

end Digits

namespace FloatLayout
variable {layout : FloatLayout} {digits : Text}

theorem inline_positionalText (inline : digits.Inline) (exponent : Int) :
    (layout.positionalText digits exponent).Inline := by
  have zeros (count : Nat) : Text.Inline (List.replicate count '0') :=
    Text.inline_replicate (by decide) count
  rw [positionalText]
  split
  · split <;> simp [inline, zeros]
  · have padded (count : Nat) : Text.Inline (List.replicate count '0' ++ digits) :=
      Text.inline_append.mpr ⟨zeros count, inline⟩
    simp [(padded _).take, (padded _).drop]

theorem inline_scientificText (inline : digits.Inline) (leading : Int) :
    (scientificText digits leading).Inline := by
  have fraction : Text.Inline digits.tail := by simpa using inline.drop 1
  rw [scientificText]
  split <;> split <;> simp [inline.take, fraction, Digits.inline_written]

theorem inline_decimalText (layout : FloatLayout) (decimal : Decimal) :
    (layout.decimalText decimal).Inline := by
  have digits : (stripZeros (Digits.written decimal.digits)).1.Inline :=
    (Digits.inline_written decimal.digits).take _
  simp only [decimalText]
  split
  · exact inline_positionalText digits _
  · split
    · exact inline_positionalText digits _
    · exact inline_scientificText digits _

theorem inline_written (layout : FloatLayout) (x : Binary64) : (layout.written x).Inline := by
  have magnitude : (layout.magnitudeText x).Inline := by
    rw [magnitudeText]
    split
    · exact inline_positionalText (by simp) 0
    · split
      · exact inline_decimalText layout _
      · simp
  rw [written]
  split
  · simp
  · split <;> simp [magnitude]

end FloatLayout

namespace Json

theorem space_le_digitChar {digit : Nat} (small : digit < 16) : ' ' ≤ Nat.digitChar digit := by
  have all : ∀ digit : Fin 16, ' ' ≤ Nat.digitChar digit := by decide
  exact all ⟨digit, small⟩

theorem inline_escapeChar (c : Char) : Text.Inline (escapeChar c) := by
  unfold escapeChar
  iterate 7 (split; · simp)
  split
  next control =>
    have small : c.toNat < 32 := control
    have high : ' ' ≤ Nat.digitChar (c.toNat / 16) := space_le_digitChar (by omega)
    have low : ' ' ≤ Nat.digitChar (c.toNat % 16) := space_le_digitChar (by omega)
    simp [high, low]
  next visible => simpa using visible

theorem inline_quoted (content : Text) : Text.Inline (quoted content) := by
  have escaped : Text.Inline (content.flatMap escapeChar) := by
    intro c member
    obtain ⟨origin, -, among⟩ := List.mem_flatMap.mp member
    exact inline_escapeChar origin c among
  simp [quoted, escaped]

mutual

theorem inline_written (level : Nat) : ∀ tree : Json, (tree.written .compact level).Inline
  | .null => by simp [written]
  | .integer number => Digits.inline_writtenInt number.toInt
  | .float number => floatLayout.inline_written number
  | .string content => inline_quoted content
  | .array [] => by simp [written]
  | .array (first :: rest) => by
      have head := inline_written (level + 1) first
      have tail := inline_writtenItems (level + 1) rest
      simp [written, JsonForm.lineBreak, head, tail]
  | .object [] => by simp [written]
  | .object ((name, first) :: rest) => by
      have head := inline_written (level + 1) first
      have tail := inline_writtenMembers (level + 1) rest
      simp [written, JsonForm.lineBreak, JsonForm.colon, inline_quoted, head, tail]

theorem inline_writtenItems (level : Nat) :
    ∀ items : List Json, (writtenItems .compact level items).Inline
  | [] => Text.inline_nil
  | item :: rest => by
      have head := inline_written level item
      have tail := inline_writtenItems level rest
      simp [writtenItems, JsonForm.lineBreak, head, tail]

theorem inline_writtenMembers (level : Nat) :
    ∀ members : List (Text × Json), (writtenMembers .compact level members).Inline
  | [] => Text.inline_nil
  | (name, value) :: rest => by
      have head := inline_written level value
      have tail := inline_writtenMembers level rest
      simp [writtenMembers, JsonForm.lineBreak, JsonForm.colon, inline_quoted, head, tail]

end

end Json
end Stencil
