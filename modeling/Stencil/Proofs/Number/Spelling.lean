import Stencil.Number.Literal

/-!
The grammar of decimal literals, given by its parts: a sign, digits around a point, and
an exponent. A text is read as a literal exactly if it is put together from such parts,
and the parts tell which literal.
-/
namespace Stencil
namespace DecimalLiteral

inductive Sign : Text → Bool → Prop
  | none : Sign [] false
  | plus : Sign ['+'] false
  | minus : Sign ['-'] true

/-- Digits with a point behind them, among them or in front of them, or without one. The
digits before the point and those after it are told apart. -/
inductive Body : Text → Text → Text → Prop
  | whole {whole : Text} (digits : Digits.isDigits whole = true) : Body whole whole []
  | point {whole fraction : Text} (digits : Digits.isDigits whole = true)
      (further : ∀ c ∈ fraction, c.isDigit = true) :
      Body (whole ++ '.' :: fraction) whole fraction
  | fraction {fraction : Text} (digits : Digits.isDigits fraction = true) :
      Body ('.' :: fraction) [] fraction

inductive Scale : Text → Int → Prop
  | none : Scale [] 0
  | marked {mark : Char} {sign digits : Text} {negative : Bool} (letter : mark = 'e' ∨ mark = 'E')
      (signed : Sign sign negative) (nonempty : Digits.isDigits digits = true) :
      Scale (mark :: (sign ++ digits))
        (if negative then -(exponentSize digits : Int) else exponentSize digits)

inductive Spells : Text → DecimalLiteral → Prop
  | parts {sign body whole fraction scale : Text} {negative : Bool} {exponent : Int}
      (signed : Sign sign negative) (digits : Body body whole fraction)
      (scaled : Scale scale exponent) :
      Spells (sign ++ (body ++ scale))
        ⟨negative, Digits.value (whole ++ fraction), exponent - fraction.length⟩

def Unsigned (content : Text) : Prop := ∀ c ∈ content.head?, c ≠ '+' ∧ c ≠ '-'

def Stopped (content : Text) : Prop := ∀ c ∈ content.head?, c.isDigit = false

theorem unsigned_of_digit {c : Char} {rest : Text} (digit : c.isDigit = true) :
    Unsigned (c :: rest) := by
  intro first same
  obtain rfl : c = first := by simpa using same
  constructor
  · rintro rfl
    exact absurd digit (by decide)
  · rintro rfl
    exact absurd digit (by decide)

theorem unsigned_of_isDigits {digits : Text} (run : Digits.isDigits digits = true) (rest : Text) :
    Unsigned (digits ++ rest) := by
  obtain ⟨nonempty, all⟩ := Digits.isDigits_iff.mp run
  cases digits with
  | nil => exact absurd rfl nonempty
  | cons c others => exact unsigned_of_digit (all c List.mem_cons_self)

theorem Body.unsigned {body whole fraction : Text} (digits : Body body whole fraction)
    (rest : Text) : Unsigned (body ++ rest) := by
  cases digits with
  | whole digits => exact unsigned_of_isDigits digits rest
  | point digits =>
      rw [List.append_assoc]
      exact unsigned_of_isDigits digits _
  | fraction => simp [Unsigned]

theorem splitSign_sign (content : Text) :
    ∃ sign, Sign sign (splitSign content).1 ∧ content = sign ++ (splitSign content).2 := by
  unfold splitSign
  split
  · exact ⟨['-'], .minus, rfl⟩
  · exact ⟨['+'], .plus, rfl⟩
  · exact ⟨[], .none, rfl⟩

theorem splitSign_append {sign rest : Text} {negative : Bool} (signed : Sign sign negative)
    (unsigned : Unsigned rest) : splitSign (sign ++ rest) = (negative, rest) := by
  cases signed with
  | plus | minus => rfl
  | none =>
      change splitSign rest = (false, rest)
      unfold splitSign
      split
      · exact absurd rfl (unsigned '-' rfl).2
      · exact absurd rfl (unsigned '+' rfl).1
      · rfl

theorem digits_of_splitDigits {content digits rest : Text}
    (split : splitDigits content = (digits, rest)) :
    (∀ c ∈ digits, c.isDigit = true) ∧ content = digits ++ rest := by
  obtain ⟨rfl, rfl⟩ := Prod.mk.inj split
  exact ⟨fun c member => List.all_eq_true.mp List.all_takeWhile c member,
    List.takeWhile_append_dropWhile.symm⟩

theorem splitDigits_append {digits rest : Text} (all : ∀ c ∈ digits, c.isDigit = true)
    (stopped : Stopped rest) : splitDigits (digits ++ rest) = (digits, rest) := by
  have behind : rest.takeWhile Char.isDigit = [] ∧ rest.dropWhile Char.isDigit = rest := by
    cases rest with
    | nil => exact ⟨rfl, rfl⟩
    | cons c others => simp [stopped c rfl]
  rw [splitDigits, List.takeWhile_append_of_pos all, List.dropWhile_append_of_pos all, behind.1,
    behind.2, List.append_nil]

theorem exponent?_eq_some_iff {content : Text} {exponent : Int} :
    exponent? content = some exponent ↔ Scale content exponent := by
  constructor
  · intro read
    cases content with
    | nil =>
        obtain rfl := Option.some.inj read
        exact .none
    | cons mark rest =>
        obtain ⟨sign, signed, split⟩ := splitSign_sign rest
        simp only [exponent?, Option.ite_none_right_eq_some, Option.some.injEq] at read
        obtain ⟨⟨letter, digits⟩, rfl⟩ := read
        have scaled := Scale.marked letter signed digits
        rwa [← split] at scaled
  · intro scaled
    cases scaled with
    | none => rfl
    | @marked mark sign digits negative letter signed nonempty =>
        have unsigned : Unsigned digits := by simpa using unsigned_of_isDigits nonempty []
        simp only [exponent?, splitSign_append signed unsigned]
        rw [if_pos ⟨letter, nonempty⟩]

theorem Scale.stopped {scale : Text} {exponent : Int} (scaled : Scale scale exponent) :
    Stopped scale ∧ scale.head? ≠ some '.' := by
  cases scaled with
  | none => simp [Stopped]
  | marked letter => rcases letter with rfl | rfl <;> simp [Stopped]

def splitBody (content : Text) : Text × Text × Text :=
  let (whole, afterWhole) := splitDigits content
  let (fraction, afterFraction) := splitFraction afterWhole
  (whole, fraction, afterFraction)

theorem ofText?_eq (content : Text) :
    ofText? content =
      let (negative, unsigned) := splitSign content
      let (whole, fraction, rest) := splitBody unsigned
      if whole = [] ∧ fraction = [] then none
      else (exponent? rest).map fun exponent =>
        ⟨negative, Digits.value (whole ++ fraction), exponent - fraction.length⟩ := rfl

theorem splitFraction_of_head {content : Text} (pointless : content.head? ≠ some '.') :
    splitFraction content = ([], content) := by
  unfold splitFraction
  split
  · exact absurd rfl pointless
  · rfl

theorem body_of_splitBody {content whole fraction rest : Text}
    (split : splitBody content = (whole, fraction, rest))
    (nonempty : ¬ (whole = [] ∧ fraction = [])) :
    ∃ body, Body body whole fraction ∧ content = body ++ rest := by
  obtain ⟨first, after, taken⟩ : ∃ first after, splitDigits content = (first, after) :=
    ⟨_, _, rfl⟩
  obtain ⟨wholeDigits, rfl⟩ := digits_of_splitDigits taken
  rw [splitBody, taken] at split
  by_cases pointless : after.head? = some '.'
  · obtain ⟨more, rfl⟩ : ∃ more, after = '.' :: more := by
      cases after with
      | nil => simp at pointless
      | cons c more => exact ⟨more, by simpa using pointless⟩
    obtain ⟨rfl, behind⟩ := Prod.mk.inj split
    obtain ⟨fractionDigits, rfl⟩ := digits_of_splitDigits behind
    by_cases empty : first = []
    · subst empty
      have digits : Digits.isDigits fraction = true :=
        Digits.isDigits_iff.mpr ⟨fun none => nonempty ⟨rfl, none⟩, fractionDigits⟩
      exact ⟨_, .fraction digits, rfl⟩
    · have digits : Digits.isDigits first = true := Digits.isDigits_iff.mpr ⟨empty, wholeDigits⟩
      exact ⟨_, .point digits fractionDigits, by simp⟩
  · simp only [splitFraction_of_head pointless, Prod.mk.injEq] at split
    obtain ⟨rfl, rfl, rfl⟩ := split
    have digits : Digits.isDigits first = true :=
      Digits.isDigits_iff.mpr ⟨fun none => nonempty ⟨none, rfl⟩, wholeDigits⟩
    exact ⟨first, .whole digits, rfl⟩

theorem splitBody_append {body whole fraction rest : Text} (digits : Body body whole fraction)
    (stopped : Stopped rest) (pointless : rest.head? ≠ some '.') :
    splitBody (body ++ rest) = (whole, fraction, rest) := by
  have pointStopped (more : Text) : Stopped ('.' :: more) := by simp [Stopped]
  cases digits with
  | whole digits =>
      rw [splitBody, splitDigits_append (Digits.isDigits_iff.mp digits).2 stopped]
      simp only [splitFraction_of_head pointless]
  | point digits further =>
      rw [List.append_assoc, List.cons_append, splitBody,
        splitDigits_append (Digits.isDigits_iff.mp digits).2 (pointStopped _)]
      simp only [splitFraction, splitDigits_append further stopped]
  | fraction digits =>
      have none : splitDigits ('.' :: (fraction ++ rest)) = ([], '.' :: (fraction ++ rest)) :=
        splitDigits_append (List.forall_mem_nil _) (pointStopped _)
      rw [List.cons_append, splitBody, none]
      simp only [splitFraction, splitDigits_append (Digits.isDigits_iff.mp digits).2 stopped]

theorem Body.nonempty {body whole fraction : Text} (digits : Body body whole fraction) :
    ¬ (whole = [] ∧ fraction = []) := by
  rintro ⟨rfl, rfl⟩
  cases digits with
  | whole digits | point digits | fraction digits => exact (Digits.isDigits_iff.mp digits).1 rfl

/-- Reading gives exactly the literals that the grammar spells. -/
theorem ofText?_eq_some_iff {content : Text} {literal : DecimalLiteral} :
    ofText? content = some literal ↔ Spells content literal := by
  rw [ofText?_eq]
  constructor
  · intro read
    obtain ⟨sign, signed, split⟩ := splitSign_sign content
    obtain ⟨whole, fraction, rest, taken⟩ : ∃ whole fraction rest,
      splitBody (splitSign content).2 = (whole, fraction, rest) := ⟨_, _, _, rfl⟩
    simp only [taken, Option.ite_none_left_eq_some, Option.map_eq_some_iff] at read
    obtain ⟨nonempty, exponent, scaled, rfl⟩ := read
    obtain ⟨body, digits, bodySplit⟩ := body_of_splitBody taken nonempty
    have spelled := Spells.parts signed digits (exponent?_eq_some_iff.mp scaled)
    rwa [← bodySplit, ← split] at spelled
  · rintro ⟨signed, digits, scaled⟩
    obtain ⟨stopped, pointless⟩ := scaled.stopped
    simp only [splitSign_append signed (digits.unsigned _),
      splitBody_append digits stopped pointless]
    rw [if_neg digits.nonempty, exponent?_eq_some_iff.mpr scaled, Option.map_some]

end DecimalLiteral
end Stencil
