import Stencil.Text.Blank

/-!
Texts without blanks around them. Trimming gives such a text, a stretch of the
original, and leaves those alone that are trimmed already.
-/
namespace Stencil.Text

def Trimmed (content : Text) : Prop :=
  (∀ c, content.head? = some c → isBlank c = false) ∧
    ∀ c, content.getLast? = some c → isBlank c = false

@[simp] theorem trim_nil : trim [] = [] := rfl

theorem trimmed_of_no_blank {content : Text} (filled : ∀ c ∈ content, isBlank c = false) :
    Trimmed content :=
  ⟨fun c first => filled c (List.mem_of_head? first),
    fun c last => filled c (List.mem_of_getLast? last)⟩

theorem trimStart_of_head {content : Text}
    (head : ∀ c, content.head? = some c → isBlank c = false) : trimStart content = content := by
  cases content with
  | nil => rfl
  | cons c rest => simp [trimStart, head c rfl]

theorem trimEnd_of_last {content : Text}
    (last : ∀ c, content.getLast? = some c → isBlank c = false) : trimEnd content = content := by
  have reversed : trimStart content.reverse = content.reverse :=
    trimStart_of_head (by simpa using last)
  rw [trimStart] at reversed
  rw [trimEnd, reversed, List.reverse_reverse]

theorem trim_of_trimmed {content : Text} (trimmed : Trimmed content) : trim content = content := by
  rw [trim, trimStart_of_head trimmed.1, trimEnd_of_last trimmed.2]

theorem head_trimStart (content : Text) (c : Char)
    (first : (trimStart content).head? = some c) : isBlank c = false := by
  have stops := List.head?_dropWhile_not isBlank content
  rw [trimStart] at first
  simpa [first] using stops

theorem last_trimEnd (content : Text) (c : Char)
    (last : (trimEnd content).getLast? = some c) : isBlank c = false := by
  apply head_trimStart content.reverse c
  simpa [trimEnd, trimStart] using last

theorem isPrefix_trimEnd (content : Text) : trimEnd content <+: content := by
  have behind : content.reverse.dropWhile isBlank <:+ content.reverse :=
    List.dropWhile_suffix isBlank
  rw [← List.reverse_prefix, List.reverse_reverse] at behind
  exact behind

theorem trim_infix (content : Text) : trim content <:+: content :=
  (isPrefix_trimEnd _).isInfix.trans (List.dropWhile_suffix isBlank).isInfix

theorem trimmed_trim (content : Text) : Trimmed (trim content) := by
  refine ⟨fun c first => ?_, last_trimEnd _⟩
  -- The text in front of the blanks at the end still starts where it did.
  apply head_trimStart content c
  rcases isPrefix_trimEnd (trimStart content) with ⟨blanks, same⟩
  rw [trim] at first
  rw [← same, List.head?_append, first]
  rfl

theorem trim_cons_blank {c : Char} (blank : isBlank c = true) (content : Text) :
    trim (c :: content) = trim content := by
  simp [trim, trimStart, blank]

/-- What two trimmed texts enclose is trimmed. -/
theorem Trimmed.enclose {front back : Text} (frontTrimmed : Trimmed front)
    (backTrimmed : Trimmed back) (frontNonempty : front ≠ []) (backNonempty : back ≠ [])
    (between : Text) : Trimmed (front ++ between ++ back) := by
  constructor
  · intro c first
    cases front with
    | nil => exact absurd rfl frontNonempty
    | cons d rest => exact frontTrimmed.1 c first
  · intro c last
    rw [List.getLast?_append, List.getLast?_eq_some_getLast backNonempty, Option.some_or,
      ← List.getLast?_eq_some_getLast] at last
    exact backTrimmed.2 c last

theorem trim_concat_blank {content : Text} (trimmed : Trimmed content) {c : Char}
    (blank : isBlank c = true) : trim (content ++ [c]) = content := by
  cases content with
  | nil => simp [trim, trimStart, trimEnd, blank]
  | cons first rest =>
      have start : trimStart (first :: rest ++ [c]) = first :: rest ++ [c] :=
        trimStart_of_head (by simpa using trimmed.1)
      have dropped : trimEnd (first :: rest ++ [c]) = trimEnd (first :: rest) := by
        simp [trimEnd, blank]
      rw [trim, start, dropped, trimEnd_of_last trimmed.2]

end Stencil.Text
