import Stencil.Proofs.Template.Wording
import Stencil.Proofs.Text.Trim

/-!
Specifiers and their text. Only some specifiers can be read, since an open count
has no text of its own; those come back when their text is read.
-/
namespace Stencil

theorem isBlank_of_isDigit {c : Char} (digit : c.isDigit = true) : isBlank c = false := by
  obtain ⟨low, high⟩ := Digits.isDigit_bounds digit
  simp only [isBlank, blankRanges, List.any_cons, List.any_nil, Bool.or_false, Bool.or_eq_false_iff,
    Bool.and_eq_false_iff, decide_eq_false_iff_not]
  omega

def Count.given? : Count → Option UInt64
  | .exactly number _ => some number
  | .atLeast _ => none

def Count.Spelled (count : Count) (least : UInt64) : Prop :=
  count.given? = none → count = .atLeast least

def Count.Exact (count : Count) : Prop := ∃ number positive, count = .exactly number positive

theorem Count.spelled_iff {count : Count} {least : UInt64} :
    count.Spelled least ↔ count = .atLeast least ∨ count.Exact := by
  cases count with
  | atLeast number => simp [Spelled, given?, Exact]
  | exactly number positive => simpa [Spelled, given?, Exact] using positive

theorem Count.meant_iff {least : UInt64} {number : Option Nat} {count : Count} :
    Meant least number count ↔ count.Spelled least ∧ count.given?.map UInt64.toNat = number := by
  constructor
  · intro meant
    cases meant with
    | absent => exact ⟨fun _ => rfl, rfl⟩
    | given value positive => exact ⟨spelled_iff.mpr (Or.inr ⟨value, positive, rfl⟩), rfl⟩
  · rintro ⟨spelled, rfl⟩
    rcases spelled_iff.mp spelled with rfl | ⟨value, positive, rfl⟩
    · exact .absent
    · exact .given value positive

namespace Specifier

inductive Legal : Specifier → Prop
  | text {count : Count} (spelled : count.Spelled 1) : Legal (text count)
  | digits {count : Count} (spelled : count.Spelled 1) : Legal (digits count)
  | whole {before : Count} (spelled : before.Spelled 1) : Legal (decimal before .oneOrMore)
  | point {before after : Count} (spelled : before.Spelled 0) (spelledAfter : after.Spelled 0)
      (given : before.given? = none → after.given? ≠ none) : Legal (decimal before after)

theorem numeral_written (count : Count) :
    Numeral count.written (count.given?.map UInt64.toNat) := by
  cases count with
  | atLeast number => exact .absent
  | exactly number positive =>
      have numeral := Numeral.given (Digits.isDigits_written number.toNat)
      rwa [Digits.value_written] at numeral

/-- The text of a specifier holds digits, points and the letter of its kind. -/
theorem mem_written {specifier : Specifier} {c : Char} (member : c ∈ specifier.written) :
    c.isDigit = true ∨ c = '.' ∨ c = 's' ∨ c = 'd' ∨ c = 'f' := by
  have digit {count : Count} (among : c ∈ count.written) : c.isDigit = true :=
    (numeral_written count).isDigit among
  have letter (kind : Kind) : kind.letter = 's' ∨ kind.letter = 'd' ∨ kind.letter = 'f' := by
    cases kind <;> simp [Kind.letter]
  rcases specifier with ⟨kind, count | ⟨before, after⟩⟩
  · simp only [written, List.mem_append, List.mem_singleton] at member
    rcases member with among | rfl
    · exact Or.inl (digit among)
    · exact Or.inr (Or.inr (letter kind))
  · by_cases short : after = .oneOrMore ∧ before ≠ .any
    · simp only [written, if_pos short, List.mem_append, List.mem_singleton] at member
      rcases member with among | rfl
      · exact Or.inl (digit among)
      · simp
    · simp only [written, if_neg short, List.mem_append, List.mem_cons, List.not_mem_nil, or_false]
        at member
      rcases member with (among | rfl | among) | rfl
      · exact Or.inl (digit among)
      · simp
      · exact Or.inl (digit among)
      · simp

theorem trimmed_written (specifier : Specifier) : Text.Trimmed specifier.written := by
  apply Text.trimmed_of_no_blank
  intro c member
  rcases mem_written member with digit | rfl | rfl | rfl | rfl
  · exact isBlank_of_isDigit digit
  all_goals decide

theorem written_ne_nil (specifier : Specifier) : specifier.written ≠ [] := by
  rcases specifier with ⟨kind, count | ⟨before, after⟩⟩
  · simp [written]
  · by_cases short : after = .oneOrMore ∧ before ≠ .any <;> simp [written, short]

theorem ofText_blank {c : Char} (blank : isBlank c = true) (raw key : Text) :
    ofText (c :: raw) key = ofText raw key := by
  rw [ofText, ofText, Text.trim_cons_blank blank]

/-- The text of a legal specifier words that specifier. -/
theorem exists_wording {specifier : Specifier} (legal : specifier.Legal) :
    ∃ wording : Wording, wording.Spells specifier.written ∧ wording.Means specifier := by
  have meant {count : Count} {least : UInt64} (spelled : count.Spelled least) :
      Count.Meant least (count.given?.map UInt64.toNat) count :=
    Count.meant_iff.mpr ⟨spelled, rfl⟩
  cases legal with
  | @text count spelled => exact ⟨_, .text (numeral_written count), .text (meant spelled)⟩
  | @digits count spelled => exact ⟨_, .digits (numeral_written count), .digits (meant spelled)⟩
  | @whole before spelled =>
      -- A count that means one or more when it is left out is not the one that means any.
      have notAny : before ≠ .any := by
        rintro rfl
        exact absurd (spelled rfl) (by decide)
      have short : (decimal before .oneOrMore).written = before.written ++ ['f'] := by
        simp [written, decimal, notAny]
      rw [short]
      exact ⟨_, .whole (numeral_written before), .whole (meant spelled)⟩
  | @point before after spelled spelledAfter given =>
      have notOne : after ≠ .oneOrMore := by
        rintro rfl
        exact absurd (spelledAfter rfl) (by decide)
      have long : (decimal before after).written =
          before.written ++ '.' :: after.written ++ ['f'] := by
        simp [written, decimal, notOne]
      rw [long]
      exact ⟨_, .point (numeral_written before) (numeral_written after) (by simpa using given),
        .point (meant spelled) (meant spelledAfter)⟩

theorem legal_of_spells {content : Text} {wording : Wording} {specifier : Specifier}
    (spells : wording.Spells content) (means : wording.Means specifier) : specifier.Legal := by
  cases means with
  | text meant => exact .text (Count.meant_iff.mp meant).1
  | digits meant => exact .digits (Count.meant_iff.mp meant).1
  | whole meant => exact .whole (Count.meant_iff.mp meant).1
  | point meant meantAfter =>
      obtain ⟨spelled, rfl⟩ := Count.meant_iff.mp meant
      obtain ⟨spelledAfter, rfl⟩ := Count.meant_iff.mp meantAfter
      cases spells with
      | point _ _ given => exact .point spelled spelledAfter (by simpa using given)

/-- The specifiers that can be read come back when their text is read. -/
theorem ofText_written {specifier : Specifier} (legal : specifier.Legal) (key : Text) :
    ofText specifier.written key = .ok specifier := by
  obtain ⟨wording, spells, means⟩ := exists_wording legal
  rw [← Text.trim_of_trimmed (trimmed_written specifier)] at spells
  exact ofText_of_spells spells means key

/-- Only those can be read. -/
theorem legal_of_ofText {raw key : Text} {specifier : Specifier}
    (read : ofText raw key = .ok specifier) : specifier.Legal := by
  have reading := reading_ofText raw key
  rw [read] at reading
  generalize Text.trim raw = content at reading
  cases reading with
  | worded spells judged =>
      cases judged with
      | meant means => exact legal_of_spells spells means

/-- The two counts that the text of a decimal can give. A side that is left out beside a
point may be empty; without a point it holds a digit or more. -/
inductive Sides : Count → Count → Prop
  | free : Sides .oneOrMore .oneOrMore
  | whole {before : Count} (exact : before.Exact) : Sides before .oneOrMore
  | fraction {after : Count} (exact : after.Exact) : Sides .any after
  | pointed {before : Count} (exact : before.Exact) : Sides before .any
  | both {before after : Count} (exact : before.Exact) (exactAfter : after.Exact) :
      Sides before after

inductive Form : Specifier → Prop
  | text {count : Count} (counted : count = .oneOrMore ∨ count.Exact) : Form (text count)
  | digits {count : Count} (counted : count = .oneOrMore ∨ count.Exact) : Form (digits count)
  | decimal {before after : Count} (sides : Sides before after) : Form (decimal before after)

theorem form_of_legal {specifier : Specifier} (legal : specifier.Legal) : specifier.Form := by
  cases legal with
  | text spelled => exact .text (Count.spelled_iff.mp spelled)
  | digits spelled => exact .digits (Count.spelled_iff.mp spelled)
  | whole spelled =>
      rcases Count.spelled_iff.mp spelled with rfl | exact
      · exact .decimal .free
      · exact .decimal (.whole exact)
  | point spelled spelledAfter given =>
      rcases Count.spelled_iff.mp spelled with rfl | exact
      · rcases Count.spelled_iff.mp spelledAfter with rfl | exactAfter
        · exact absurd rfl (given rfl)
        · exact .decimal (.fraction exactAfter)
      · rcases Count.spelled_iff.mp spelledAfter with rfl | exactAfter
        · exact .decimal (.pointed exact)
        · exact .decimal (.both exact exactAfter)

theorem legal_of_form {specifier : Specifier} (form : specifier.Form) : specifier.Legal := by
  cases form with
  | text counted => exact .text (Count.spelled_iff.mpr counted)
  | digits counted => exact .digits (Count.spelled_iff.mpr counted)
  | decimal sides =>
      have spelled {count : Count} {least : UInt64} (exact : count.Exact) : count.Spelled least :=
        Count.spelled_iff.mpr (Or.inr exact)
      have given {count : Count} (exact : count.Exact) : count.given? ≠ none := by
        obtain ⟨number, positive, rfl⟩ := exact
        simp [Count.given?]
      cases sides with
      | free => exact .whole (Count.spelled_iff.mpr (Or.inl rfl))
      | whole exact => exact .whole (spelled exact)
      | fraction exact => exact .point (fun _ => rfl) (spelled exact) fun _ => given exact
      | pointed exact =>
          exact .point (spelled exact) (fun _ => rfl) fun none => absurd none (given exact)
      | both exact exactAfter =>
          exact .point (spelled exact) (spelled exactAfter) fun _ => given exactAfter

structure Told (specifier : Specifier) : Prop where
  again : ∀ raw key, ofText raw key = .ok specifier →
    ∀ other, ofText specifier.written other = .ok specifier
  apart : ∀ raw key, ofText raw key = .ok specifier →
    ∀ other raw' key', ofText raw' key' = .ok other →
      (specifier = other ↔ specifier.written = other.written)
  form : ∀ key, ofText specifier.written key = .ok specifier ↔ specifier.Form

/-- A specifier that was read comes back from its text and is known by it; of all
others, however made, none does. -/
theorem told_by_written (specifier : Specifier) : specifier.Told where
  again _ _ read other := ofText_written (legal_of_ofText read) other
  apart _ _ read other _ _ otherRead := by
    refine ⟨congrArg written, fun same => ?_⟩
    have back := ofText_written (legal_of_ofText read) []
    have otherBack := ofText_written (legal_of_ofText otherRead) []
    rw [same, otherBack] at back
    exact (Except.ok.inj back).symm
  form key :=
    ⟨fun read => form_of_legal (legal_of_ofText read),
      fun form => ofText_written (legal_of_form form) key⟩

-- An open count has no text of its own, so other specifiers may share one.
example : (text (.atLeast 2)).written = (text .oneOrMore).written := rfl

end Specifier
end Stencil
