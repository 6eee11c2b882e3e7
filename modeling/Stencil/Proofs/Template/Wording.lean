import Stencil.Proofs.Steps
import Stencil.Template.Specifier

/-!
What the text of a specifier asks for. A text words a specifier by its letter, its point
and its numbers, and these may be of any size. The wording decides what is read: a number
beyond 64 bits is reported before a zero, and if there is neither, the text gives the
specifier with the counts that the numbers stand for. No other text gives one.
-/
namespace Stencil

/-- The count that a number stands for; where none is written, `least` or more. -/
inductive Count.Meant (least : UInt64) : Option Nat → Count → Prop
  | absent : Meant least none (.atLeast least)
  | given (number : UInt64) (positive : number ≠ 0) :
      Meant least (some number.toNat) (.exactly number positive)

theorem Count.Meant.unique {least : UInt64} {number : Option Nat} {count other : Count}
    (meant : Count.Meant least number count) (otherMeant : Count.Meant least number other) :
    count = other := by
  cases meant with
  | absent =>
      cases otherMeant
      rfl
  | given value positive =>
      generalize same : some value.toNat = number at otherMeant
      cases otherMeant with
      | absent => simp at same
      | given second =>
          obtain rfl := UInt64.toNat_inj.mp (Option.some.inj same)
          rfl

theorem Count.Meant.bounded {least : UInt64} {number : Option Nat} {count : Count}
    (meant : Count.Meant least number count) {value : Nat} (member : value ∈ number.toList) :
    0 < value ∧ value < UInt64.size := by
  cases meant with
  | absent => simp at member
  | given word positive =>
      obtain rfl : value = word.toNat := by simpa using member
      exact ⟨Nat.pos_of_ne_zero fun zero => positive (UInt64.toNat_inj.mp zero), word.toNat_lt⟩

namespace Specifier

inductive Numeral : Text → Option Nat → Prop
  | absent : Numeral [] none
  | given {content : Text} (digits : Digits.isDigits content = true) :
      Numeral content (some (Digits.value content))

theorem Numeral.unique {content : Text} {number other : Option Nat}
    (numeral : Numeral content number) (otherNumeral : Numeral content other) :
    number = other := by
  cases numeral with
  | absent =>
      cases otherNumeral with
      | absent => rfl
      | given digits => exact absurd rfl (Digits.isDigits_iff.mp digits).1
  | given digits =>
      cases otherNumeral with
      | absent => exact absurd rfl (Digits.isDigits_iff.mp digits).1
      | given => rfl

theorem Numeral.isDigit {content : Text} {number : Option Nat} (numeral : Numeral content number)
    {c : Char} (member : c ∈ content) : c.isDigit = true := by
  cases numeral with
  | absent => simp at member
  | given digits => exact (Digits.isDigits_iff.mp digits).2 c member

theorem Numeral.undotted {content : Text} {number : Option Nat}
    (numeral : Numeral content number) : '.' ∉ content :=
  fun dot => absurd (numeral.isDigit dot) (by decide)

/-- What a text asks for: a run of characters or of digits, or a decimal without a
point or with one. -/
inductive Wording where
  | text (number : Option Nat)
  | digits (number : Option Nat)
  | whole (before : Option Nat)
  | point (before after : Option Nat)

namespace Wording

/-- The texts of a wording. They differ in the leading zeros of its numbers, and the exact
length of a text may go without the letter. -/
inductive Spells : Text → Wording → Prop
  | bare {content : Text} (digits : Digits.isDigits content = true) :
      Spells content (.text (some (Digits.value content)))
  | text {content : Text} {number : Option Nat} (numeral : Numeral content number) :
      Spells (content ++ ['s']) (.text number)
  | digits {content : Text} {number : Option Nat} (numeral : Numeral content number) :
      Spells (content ++ ['d']) (.digits number)
  | whole {content : Text} {before : Option Nat} (numeral : Numeral content before) :
      Spells (content ++ ['f']) (.whole before)
  -- A point alone is no number.
  | point {front back : Text} {before after : Option Nat} (frontNumeral : Numeral front before)
      (backNumeral : Numeral back after) (given : before = none → after ≠ none) :
      Spells (front ++ '.' :: back ++ ['f']) (.point before after)

def numbers : Wording → List Nat
  | .text number | .digits number | .whole number => number.toList
  | .point before after => before.toList ++ after.toList

inductive Means : Wording → Specifier → Prop
  | text {number : Option Nat} {count : Count} (meant : Count.Meant 1 number count) :
      Means (.text number) (Specifier.text count)
  | digits {number : Option Nat} {count : Count} (meant : Count.Meant 1 number count) :
      Means (.digits number) (Specifier.digits count)
  | whole {number : Option Nat} {count : Count} (meant : Count.Meant 1 number count) :
      Means (.whole number) (decimal count .oneOrMore)
  | point {before after : Option Nat} {front back : Count} (meant : Count.Meant 0 before front)
      (meantAfter : Count.Meant 0 after back) : Means (.point before after) (decimal front back)

/-- What becomes of a wording. A number that is too great is reported before a zero. -/
inductive Judged (wording : Wording) (specifier : Text) :
    Except TemplateFault Specifier → Prop
  | great {number : Nat} (member : number ∈ wording.numbers) (great : UInt64.size ≤ number) :
      Judged wording specifier (.error (.invalidLength specifier))
  | zero (fit : ∀ number ∈ wording.numbers, number < UInt64.size)
      (zero : 0 ∈ wording.numbers) : Judged wording specifier (.error (.zeroLength specifier))
  | meant {result : Specifier} (means : wording.Means result) :
      Judged wording specifier (.ok result)

theorem Means.unique {wording : Wording} {specifier other : Specifier}
    (means : wording.Means specifier) (otherMeans : wording.Means other) : specifier = other := by
  cases means with
  | text meant =>
      cases otherMeans with
      | text otherMeant => rw [meant.unique otherMeant]
  | digits meant =>
      cases otherMeans with
      | digits otherMeant => rw [meant.unique otherMeant]
  | whole meant =>
      cases otherMeans with
      | whole otherMeant => rw [meant.unique otherMeant]
  | point meant meantAfter =>
      cases otherMeans with
      | point otherMeant otherMeantAfter =>
          rw [meant.unique otherMeant, meantAfter.unique otherMeantAfter]

theorem Means.bounded {wording : Wording} {specifier : Specifier}
    (means : wording.Means specifier) {number : Nat} (member : number ∈ wording.numbers) :
    0 < number ∧ number < UInt64.size := by
  cases means with
  | text meant | digits meant | whole meant => exact meant.bounded member
  | point meant meantAfter =>
      rcases List.mem_append.mp member with front | back
      · exact meant.bounded front
      · exact meantAfter.bounded back

/-- Of the three things that can become of a wording no two go together. -/
theorem Judged.unique {wording : Wording} {specifier : Text}
    {result other : Except TemplateFault Specifier} (judged : wording.Judged specifier result)
    (otherJudged : wording.Judged specifier other) : result = other := by
  cases judged with
  | great member great =>
      cases otherJudged with
      | great => rfl
      | zero fit => exact absurd (fit _ member) (Nat.not_lt.mpr great)
      | meant means => exact absurd (means.bounded member).2 (Nat.not_lt.mpr great)
  | zero fit zero =>
      cases otherJudged with
      | great member great => exact absurd (fit _ member) (Nat.not_lt.mpr great)
      | zero => rfl
      | meant means => exact absurd (means.bounded zero).1 (Nat.lt_irrefl 0)
  | meant means =>
      cases otherJudged with
      | great member great => exact absurd (means.bounded member).2 (Nat.not_lt.mpr great)
      | zero fit zero => exact absurd (means.bounded zero).1 (Nat.lt_irrefl 0)
      | meant otherMeans => rw [means.unique otherMeans]

end Wording

inductive Numbered (content specifier : Text) : Except TemplateFault (Option UInt64) → Prop
  | given {given : Option UInt64} (numeral : Numeral content (given.map UInt64.toNat)) :
      Numbered content specifier (.ok given)
  | refused (great : ∀ number, Numeral content number →
        ∃ value ∈ number.toList, UInt64.size ≤ value) :
      Numbered content specifier (.error (.invalidLength specifier))

theorem numbered_number? (content specifier : Text) :
    Numbered content specifier (number? content specifier) := by
  unfold number?
  split
  next empty =>
    subst empty
    exact .given .absent
  next nonempty =>
    split
    next fits =>
      have number : (UInt64.ofNat (Digits.value content)).toNat = Digits.value content :=
        UInt64.toNat_ofNat_of_lt' fits.2
      apply Numbered.given
      rw [Option.map_some, number]
      exact .given fits.1
    next unfit =>
      refine .refused fun number numeral => ?_
      cases numeral with
      | absent => exact absurd rfl nonempty
      | given digits => exact ⟨_, by simp, Nat.not_lt.mp fun less => unfit ⟨digits, less⟩⟩

inductive Counted (least : UInt64) (number : Option Nat) (specifier : Text) :
    Except TemplateFault Count → Prop
  | great {value : Nat} (member : value ∈ number.toList) (great : UInt64.size ≤ value) :
      Counted least number specifier (.error (.invalidLength specifier))
  | zero (zero : number = some 0) :
      Counted least number specifier (.error (.zeroLength specifier))
  | meant {count : Count} (meant : Count.Meant least number count) :
      Counted least number specifier (.ok count)

theorem counted_countOr (least : UInt64) (given : Option UInt64) (specifier : Text) :
    Counted least (given.map UInt64.toNat) specifier
      (countOr (.atLeast least) given specifier) := by
  cases given with
  | none => exact .meant .absent
  | some number =>
      by_cases zero : number = 0
      · subst zero
        exact .zero rfl
      · rw [countOr, dif_pos zero]
        exact .meant (.given number zero)

theorem lt_size_of_given {given : Option UInt64} {number : Nat}
    (member : number ∈ (given.map UInt64.toNat).toList) : number < UInt64.size := by
  obtain ⟨value, -, rfl⟩ : ∃ value, given = some value ∧ value.toNat = number := by
    simpa using member
  exact value.toNat_lt

theorem counted_charCount {content : Text} {number : Option Nat}
    (numeral : Numeral content number) (specifier : Text) :
    Counted 1 number specifier (charCount content specifier) := by
  have numbered := numbered_number? content specifier
  unfold charCount
  generalize number? content specifier = result at numbered
  cases numbered with
  | given found =>
      obtain rfl := numeral.unique found
      exact counted_countOr 1 _ specifier
  | refused great =>
      obtain ⟨value, member, large⟩ := great number numeral
      exact .great member large

/-- A text without a letter at its end can only be a bare number. -/
theorem ofText_unlettered {raw : Text} (nonempty : Text.trim raw ≠ [])
    (unlettered : ∀ kind : Kind, (Text.trim raw).getLast? ≠ some kind.letter) (key : Text) :
    ofText raw key = (do return text (← charCount (Text.trim raw) (Text.trim raw))) := by
  rw [ofText]
  split
  next none => exact absurd (List.getLast?_eq_none_iff.mp none) nonempty
  next last => exact absurd last (unlettered .text)
  next last => exact absurd last (unlettered .digits)
  next last => exact absurd last (unlettered .decimal)
  next => rfl

theorem unlettered_of_isDigits {content : Text} (digits : Digits.isDigits content = true)
    (kind : Kind) : content.getLast? ≠ some kind.letter := by
  intro last
  have letter := (Numeral.given digits).isDigit (List.mem_of_getLast? last)
  cases kind <;> exact absurd letter (by decide)

namespace Wording

/-- With a single number in it, a wording becomes what the number does. -/
theorem judged_of_counted {wording : Wording} {number : Option Nat} {specifier : Text}
    {result : Except TemplateFault Count} {build : Count → Specifier}
    (counted : Counted 1 number specifier result) (single : wording.numbers = number.toList)
    (means : ∀ count, Count.Meant 1 number count → wording.Means (build count)) :
    wording.Judged specifier (do return build (← result)) := by
  cases counted with
  | great member great => exact .great (single ▸ member) great
  | zero zero =>
      subst zero
      refine .zero ?_ (by simp [single])
      simp [single, UInt64.size]
  | meant meant => exact .meant (means _ meant)

theorem judged_wholeCounts {content : Text} {number : Option Nat}
    (numeral : Numeral content number) (specifier : Text) :
    (Wording.whole number).Judged specifier (do
      let (front, back) ← pointCounts content specifier
      return decimal front back) := by
  rw [pointCounts, List.splitOn_eq_singleton numeral.undotted]
  have judged := judged_of_counted (counted_charCount numeral specifier) rfl fun _ => .whole
  cases counted : charCount content specifier <;> simpa [counted] using judged

theorem pointCounts_pointed {front back : Text} (undotted : '.' ∉ front)
    (backUndotted : '.' ∉ back) (specifier : Text) :
    pointCounts (front ++ '.' :: back) specifier = (do
      let before ← number? front specifier
      let after ← number? back specifier
      if before = none ∧ after = none then .error (.noDigits specifier)
      else return (← countOr .any before specifier, ← countOr .any after specifier)) := by
  rw [pointCounts, List.splitOn_append_cons_self_of_not_mem undotted,
    List.splitOn_eq_singleton backUndotted]

/-- The two sides of a point, once their numbers are known to fit. -/
theorem judged_of_both {before after : Option Nat} {specifier : Text}
    {front back : Except TemplateFault Count} (counted : Counted 0 before specifier front)
    (countedBack : Counted 0 after specifier back)
    (fit : ∀ number ∈ (point before after).numbers, number < UInt64.size) :
    (point before after).Judged specifier (do
      let (front, back) ← (do return (← front, ← back))
      return decimal front back) := by
  cases counted with
  | great member great => exact .great (List.mem_append_left _ member) great
  | zero zero => exact .zero fit (List.mem_append_left _ (by simp [zero]))
  | meant meant =>
      cases countedBack with
      | great member great => exact .great (List.mem_append_right _ member) great
      | zero zero => exact .zero fit (List.mem_append_right _ (by simp [zero]))
      | meant meantAfter => exact .meant (.point meant meantAfter)

theorem judged_pointCounts {front back : Text} {before after : Option Nat}
    (frontNumeral : Numeral front before) (backNumeral : Numeral back after)
    (given : before = none → after ≠ none) (specifier : Text) :
    (point before after).Judged specifier (do
      let (front, back) ← pointCounts (front ++ '.' :: back) specifier
      return decimal front back) := by
  rw [pointCounts_pointed frontNumeral.undotted backNumeral.undotted]
  have numbered := numbered_number? front specifier
  have numberedBack := numbered_number? back specifier
  generalize number? front specifier = result at numbered
  generalize number? back specifier = resultBack at numberedBack
  -- A number that is too great on either side is found before the counts are made.
  cases numbered with
  | refused great =>
      obtain ⟨value, member, large⟩ := great before frontNumeral
      exact .great (List.mem_append_left _ member) large
  | @given first found =>
      obtain rfl := frontNumeral.unique found
      cases numberedBack with
      | refused great =>
          obtain ⟨value, member, large⟩ := great after backNumeral
          exact .great (List.mem_append_right _ member) large
      | @given second found =>
          obtain rfl := backNumeral.unique found
          have fit : ∀ number ∈ (point (first.map UInt64.toNat)
              (second.map UInt64.toNat)).numbers, number < UInt64.size := by
            intro number member
            exact (List.mem_append.mp member).elim lt_size_of_given lt_size_of_given
          have notBoth : ¬ (first = none ∧ second = none) := by
            rintro ⟨rfl, rfl⟩
            exact given rfl rfl
          simp only [bind, Except.bind, if_neg notBoth]
          exact judged_of_both (counted_countOr 0 first specifier)
            (counted_countOr 0 second specifier) fit

theorem judged_ofText {raw : Text} {wording : Wording} (spells : wording.Spells (Text.trim raw))
    (key : Text) : wording.Judged (Text.trim raw) (ofText raw key) := by
  generalize trimmed : Text.trim raw = content at spells
  cases spells with
  | bare digits =>
      have nonempty := (Digits.isDigits_iff.mp digits).1
      rw [ofText_unlettered (trimmed ▸ nonempty) (trimmed ▸ unlettered_of_isDigits digits), trimmed]
      exact judged_of_counted (counted_charCount (.given digits) content) rfl fun _ => .text
  | text numeral =>
      simp only [ofText, trimmed, List.getLast?_concat, List.dropLast_concat]
      exact judged_of_counted (counted_charCount numeral _) rfl fun _ => .text
  | digits numeral =>
      simp only [ofText, trimmed, List.getLast?_concat, List.dropLast_concat]
      exact judged_of_counted (counted_charCount numeral _) rfl fun _ => .digits
  | whole numeral =>
      simp only [ofText, trimmed, List.getLast?_concat, List.dropLast_concat]
      exact judged_wholeCounts numeral _
  | point frontNumeral backNumeral given =>
      simp only [ofText, trimmed, List.getLast?_concat, List.dropLast_concat]
      exact judged_pointCounts frontNumeral backNumeral given _

end Wording

theorem ofText_of_spells {raw : Text} {wording : Wording} {specifier : Specifier}
    (spells : wording.Spells (Text.trim raw)) (means : wording.Means specifier) (key : Text) :
    ofText raw key = .ok specifier :=
  (Wording.judged_ofText spells key).unique (.meant means)

theorem charCount_of_no_numeral {content : Text} (unread : ∀ number, ¬ Numeral content number)
    (specifier : Text) : charCount content specifier = .error (.invalidLength specifier) := by
  have numbered := numbered_number? content specifier
  unfold charCount
  generalize number? content specifier = result at numbered
  cases numbered with
  | given numeral => exact absurd numeral (unread _)
  | refused => rfl

theorem pointCounts_of_shapeless {content : Text} (pointed : content ≠ ['.'])
    (shapeless : ∀ wording, ¬ Wording.Spells (content ++ ['f']) wording) (specifier : Text) :
    pointCounts content specifier = .error (.invalidLength specifier) := by
  have pieces : ['.'].intercalate (content.splitOn '.') = content := List.intercalate_splitOn '.'
  rw [pointCounts]
  split
  next before split =>
    obtain rfl : before = content := by simpa [split] using pieces
    rw [charCount_of_no_numeral fun number numeral => shapeless _ (.whole numeral)]
    rfl
  next front back split =>
    obtain rfl : front ++ '.' :: back = content := by simpa [split] using pieces
    have numbered := numbered_number? front specifier
    have numberedBack := numbered_number? back specifier
    generalize number? front specifier = result at numbered
    generalize number? back specifier = resultBack at numberedBack
    cases numbered with
    | refused => rfl
    | @given first numeral =>
        cases numberedBack with
        | refused => rfl
        | @given second backNumeral =>
            by_cases none : first = none ∧ second = none
            · obtain ⟨rfl, rfl⟩ := none
              cases numeral
              cases backNumeral
              exact absurd rfl pointed
            · exact absurd (.point numeral backNumeral (by simpa using none)) (shapeless _)
  next => rfl

theorem ofText_of_shapeless {raw : Text} (nonempty : Text.trim raw ≠ [])
    (pointed : Text.trim raw ≠ ['.', 'f'])
    (shapeless : ∀ wording, ¬ Wording.Spells (Text.trim raw) wording) (key : Text) :
    ofText raw key = .error (.invalidLength (Text.trim raw)) := by
  by_cases lettered : ∃ kind : Kind, (Text.trim raw).getLast? = some kind.letter
  · obtain ⟨kind, last⟩ := lettered
    obtain ⟨content, same⟩ := List.getLast?_eq_some_iff.mp last
    rw [same] at pointed shapeless
    rw [ofText, same]
    cases kind with
    | text =>
        simp only [Kind.letter, List.getLast?_concat, List.dropLast_concat]
        rw [charCount_of_no_numeral fun number numeral => shapeless _ (.text numeral)]
        rfl
    | digits =>
        simp only [Kind.letter, List.getLast?_concat, List.dropLast_concat]
        rw [charCount_of_no_numeral fun number numeral => shapeless _ (.digits numeral)]
        rfl
    | decimal =>
        simp only [Kind.letter, List.getLast?_concat, List.dropLast_concat]
        rw [pointCounts_of_shapeless (fun point => pointed (by rw [point]; rfl)) shapeless]
        rfl
  · rw [ofText_unlettered nonempty (not_exists.mp lettered)]
    generalize Text.trim raw = content at nonempty shapeless
    rw [charCount_of_no_numeral]
    · rfl
    · intro number numeral
      cases numeral with
      | absent => exact nonempty rfl
      | given digits => exact shapeless _ (.bare digits)

inductive Reading (key : Text) : Text → Except TemplateFault Specifier → Prop
  | empty : Reading key [] (.error (.emptySpecifier key))
  | noDigits : Reading key ['.', 'f'] (.error (.noDigits ['.', 'f']))
  | worded {content : Text} {wording : Wording} {result : Except TemplateFault Specifier}
      (spells : wording.Spells content) (judged : wording.Judged content result) :
      Reading key content result
  | other {content : Text} (nonempty : content ≠ []) (pointed : content ≠ ['.', 'f'])
      (shapeless : ∀ wording, ¬ Wording.Spells content wording) :
      Reading key content (.error (.invalidLength content))

/-- Every text is dealt with by one of the rules. -/
theorem reading_ofText (raw key : Text) : Reading key (Text.trim raw) (ofText raw key) := by
  by_cases empty : Text.trim raw = []
  · rw [ofText, empty]
    exact .empty
  · by_cases point : Text.trim raw = ['.', 'f']
    · rw [ofText, point]
      exact .noDigits
    · by_cases worded : ∃ wording, Wording.Spells (Text.trim raw) wording
      · obtain ⟨wording, spells⟩ := worded
        exact .worded spells (Wording.judged_ofText spells key)
      · have shapeless := not_exists.mp worded
        rw [ofText_of_shapeless empty point shapeless]
        exact .other empty point shapeless

/-- The rules say exactly what is read from a text, whatever its length and its numbers. -/
theorem ofText_eq_iff_reading {raw key : Text} {result : Except TemplateFault Specifier} :
    ofText raw key = result ↔ Reading key (Text.trim raw) result := by
  constructor
  · rintro rfl
    exact reading_ofText raw key
  · intro reading
    generalize trimmed : Text.trim raw = content at reading
    cases reading with
    | empty => rw [ofText, trimmed]; rfl
    | noDigits => rw [ofText, trimmed]; rfl
    | worded spells judged =>
        subst trimmed
        exact (Wording.judged_ofText spells key).unique judged
    | other nonempty pointed shapeless =>
        subst trimmed
        exact ofText_of_shapeless nonempty pointed shapeless key

-- Of a zero and a number beyond 64 bits it is the latter that is reported.
example : fault? (ofText " 0.18446744073709551616f ".toList []) =
    some (.invalidLength "0.18446744073709551616f".toList) := by decide +kernel

end Specifier
end Stencil
