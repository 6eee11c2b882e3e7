import Stencil.Proofs.Expression.Basic

/-!
The text of a pattern is an expression of the notation: reading it gives one set
for each literal character, one group for each capture, and no others. What a
literal holds therefore never acts as notation.
-/
namespace Stencil

def CharClass.set : CharClass → CharSet
  | .noBrace => ⟨true, [('{', '{'), ('}', '}')]⟩
  | .digit => ⟨false, [('0', '9')]⟩
  | .except barred => ⟨true, [(barred, barred)]⟩
  | .only allowed => ⟨false, [(allowed, allowed)]⟩

def Count.times : Count → Nat × Bool
  | .exactly number _ => (number.toNat, false)
  | .atLeast number => (number.toNat, true)

def CharClass.repeated (chars : CharClass) (times : Nat × Bool) : Repeat :=
  ⟨chars.set, times.1, times.2⟩

def Shape.repeats : Shape → List Repeat
  | .run chars count => [chars.repeated count.times]
  | .decimal before after =>
      [CharClass.digit.repeated before.times, (CharClass.only '.').repeated (1, false),
        CharClass.digit.repeated after.times]

def Piece.items : Piece → List Item
  | .literal content => content.map fun c => .bare ((CharClass.only c).repeated (1, false))
  | .capture shape => [.group shape.repeats]

def Pattern.expression (pattern : Pattern) : Expression := pattern.flatMap Piece.items

namespace Glyph

def ofChar (c : Char) : Glyph := if isMeta c then quoted c else bare c

theorem ofText_cons {c : Char} (plain : c ≠ '\\') (rest : Text) :
    ofText (c :: rest) = bare c :: ofText rest := by
  rw [ofText]
  simp [plain]

theorem ofText_append {content : Text} (plain : '\\' ∉ content) (rest : Text) :
    ofText (content ++ rest) = content.map bare ++ ofText rest := by
  induction content with
  | nil => rfl
  | cons c content ih =>
      have first : c ≠ '\\' := fun same => plain (by simp [same])
      have others : '\\' ∉ content := fun member => plain (List.mem_cons_of_mem c member)
      rw [List.cons_append, ofText_cons first, ih others]
      rfl

theorem ofText_escapeChar (c : Char) (rest : Text) :
    ofText (escapeChar c ++ rest) = ofChar c :: ofText rest := by
  unfold escapeChar ofChar
  by_cases special : isMeta c = true
  · simp [special, ofText]
  · have plain : c ≠ '\\' := by
      rintro rfl
      exact special (by decide)
    simp [special, ofText_cons plain]

theorem ofText_escaped (content rest : Text) :
    ofText (escaped content ++ rest) = content.map ofChar ++ ofText rest := by
  induction content with
  | nil => rfl
  | cons c content ih =>
      have unfolded : escaped (c :: content) = escapeChar c ++ escaped content := rfl
      rw [unfolded, List.append_assoc, ofText_escapeChar, ih]
      rfl

-- What is escaped stands for itself wherever its operators are escaped too.
theorem literal?_ofChar {operators : List Char} (c : Char)
    (escapes : ∀ operator ∈ operators, isMeta operator = true) :
    (ofChar c).literal? operators = some c := by
  unfold ofChar
  by_cases special : isMeta c = true
  · simp [special, literal?]
  · have ordinary : c ∉ operators := fun member => special (escapes c member)
    simp [special, literal?, ordinary]

end Glyph

namespace Expression

theorem setOperators_escaped : ∀ operator ∈ setOperators, isMeta operator = true := by
  simp [setOperators, isMeta]

theorem operators_escaped : ∀ operator ∈ operators, isMeta operator = true := by
  simp [operators, isMeta]

theorem readRanges_single (c : Char) (rest : List Glyph) :
    readRanges (Glyph.ofChar c :: .bare ']' :: rest) = some ([(c, c)], rest) := by
  have literal := Glyph.literal?_ofChar c setOperators_escaped
  have noBracket : Glyph.ofChar c ≠ .bare ']' := by
    intro same
    simp [same, Glyph.literal?, setOperators] at literal
  rw [readRanges]
  · simp [readRanges, literal]
  · exact noBracket
  · simp

theorem readSet_written (chars : CharClass) (rest : Text) :
    readSet (Glyph.ofText (chars.written ++ rest)) = some (chars.set, Glyph.ofText rest) := by
  cases chars with
  | noBrace =>
      have glyphs : Glyph.ofText (CharClass.noBrace.written ++ rest) =
          ['[', '^', '{', '}', ']'].map .bare ++ Glyph.ofText rest :=
        Glyph.ofText_append (by decide) rest
      rw [glyphs]
      rfl
  | digit =>
      have glyphs : Glyph.ofText (CharClass.digit.written ++ rest) =
          ['[', '0', '-', '9', ']'].map .bare ++ Glyph.ofText rest :=
        Glyph.ofText_append (by decide) rest
      rw [glyphs]
      rfl
  | except barred =>
      have glyphs : Glyph.ofText ((CharClass.except barred).written ++ rest) =
          .bare '[' :: .bare '^' :: Glyph.ofChar barred :: .bare ']' :: Glyph.ofText rest := by
        simp only [CharClass.written, List.cons_append, List.append_assoc, List.nil_append]
        rw [Glyph.ofText_cons (by decide), Glyph.ofText_cons (by decide),
          Glyph.ofText_escapeChar, Glyph.ofText_cons (by decide)]
      rw [glyphs, readSet, readRanges_single]
      rfl
  | only allowed =>
      have literal := Glyph.literal?_ofChar allowed operators_escaped
      have noBracket : Glyph.ofChar allowed ≠ .bare '[' := by
        intro same
        simp [same, Glyph.literal?, operators] at literal
      rw [CharClass.written, Glyph.ofText_escapeChar, readSet]
      · simp [literal, CharClass.set]
      · intro _ same
        exact absurd same noBracket
      · exact noBracket

theorem readCount_digits (front digits : Text) (closing : List Glyph)
    (numeric : ∀ c ∈ digits, c.isDigit = true) :
    readCount front (digits.map .bare ++ closing) = readCount (front ++ digits) closing := by
  induction digits generalizing front with
  | nil => simp
  | cons c digits ih =>
      have digit : c.isDigit = true := numeric c (by simp)
      -- The closing brace and the comma end the digits, so neither is one of them.
      have noBrace : c ≠ '}' := by
        rintro rfl
        exact absurd digit (by decide)
      have noComma : c ≠ ',' := by
        rintro rfl
        exact absurd digit (by decide)
      have others := ih (front ++ [c]) fun other member => numeric other (by simp [member])
      rw [List.map_cons, List.cons_append, readCount]
      · simpa [digit] using others
      · simpa using noBrace
      · intro _ _
        exact noComma

theorem digits_without_backslash (number : Nat) : '\\' ∉ Digits.written number := by
  intro member
  exact absurd (Digits.isDigit_of_mem_written member) (by decide)

theorem readQuantifier_written (count : Count) (rest : Text) :
    readQuantifier (Glyph.ofText (count.quantifier ++ rest)) =
      some (count.times, Glyph.ofText rest) := by
  have numeric (number : Nat) : ∀ c ∈ Digits.written number, c.isDigit = true :=
    fun c member => Digits.isDigit_of_mem_written member
  cases count with
  | exactly number positive =>
      simp only [Count.quantifier, List.cons_append, List.append_assoc, List.nil_append]
      rw [Glyph.ofText_cons (by decide), Glyph.ofText_append (digits_without_backslash _),
        Glyph.ofText_cons (by decide), readQuantifier, readCount_digits [] _ _ (numeric _)]
      simp [readCount, Count.times, Digits.written_ne_nil]
  | atLeast number =>
      unfold Count.quantifier
      by_cases any : number = 0
      · subst any
        rfl
      by_cases one : number = 1
      · subst one
        rfl
      simp only [any, one, ↓reduceIte, List.cons_append, List.append_assoc, List.nil_append]
      rw [Glyph.ofText_cons (by decide), Glyph.ofText_append (digits_without_backslash _),
        Glyph.ofText_cons (by decide), Glyph.ofText_cons (by decide), readQuantifier,
        readCount_digits [] _ _ (numeric _)]
      simp [readCount, Count.times, Digits.written_ne_nil]

theorem readRepeat_counted (chars : CharClass) (count : Count) (rest : Text) :
    readRepeat (Glyph.ofText (chars.written ++ (count.quantifier ++ rest))) =
      some (chars.repeated count.times, Glyph.ofText rest) := by
  simp only [readRepeat, readSet_written, readQuantifier_written, bind, Option.bind, pure]
  rfl

def Uncounted (glyphs : List Glyph) : Prop :=
  ∀ c, glyphs.head? = some (.bare c) → c ≠ '*' ∧ c ≠ '+' ∧ c ≠ '{'

theorem readQuantifier_uncounted {glyphs : List Glyph} (uncounted : Uncounted glyphs) :
    readQuantifier glyphs = some ((1, false), glyphs) := by
  unfold readQuantifier
  split
  · exact absurd rfl (uncounted '*' rfl).1
  · exact absurd rfl (uncounted '+' rfl).2.1
  · exact absurd rfl (uncounted '{' rfl).2.2
  · rfl

theorem readRepeat_once (c : Char) {rest : Text} (uncounted : Uncounted (Glyph.ofText rest)) :
    readRepeat (Glyph.ofText (escapeChar c ++ rest)) =
      some ((CharClass.only c).repeated (1, false), Glyph.ofText rest) := by
  have set := readSet_written (.only c) rest
  rw [CharClass.written] at set
  simp only [readRepeat, set, readQuantifier_uncounted uncounted, bind, Option.bind, pure]
  rfl

theorem readItems_repeat {opened : Option (List Repeat)} {glyphs rest : List Glyph}
    {content : Repeat} (read : readRepeat glyphs = some (content, rest)) :
    readItems opened glyphs =
      match opened with
      | none => (readItems none rest).map (.bare content :: ·)
      | some inner => readItems (some (inner ++ [content])) rest := by
  -- Neither a parenthesis nor the final `$` reads as a set, so only the last case is left.
  have literal (c : Char) (operator : operators.contains c = true) (bracket : c ≠ '[')
      (more : List Glyph) : readRepeat (.bare c :: more) = none := by
    have noSet : readSet (.bare c :: more) = none := by
      rw [readSet]
      · simp [Glyph.literal?, List.contains_iff_mem.mp operator]
      · simp [bracket]
      · simpa using bracket
    simp [readRepeat, noSet]
  rw [readItems.eq_def]
  split
  · rw [literal '$' (by decide) (by decide)] at read
    simp at read
  · rw [literal '(' (by decide) (by decide)] at read
    simp at read
  · rw [literal ')' (by decide) (by decide)] at read
    simp at read
  · split
    · next unread =>
      rw [read] at unread
      simp at unread
    · next again =>
      rw [read] at again
      obtain ⟨rfl, rfl⟩ := by simpa using again
      rfl

theorem readItems_bare {glyphs rest : List Glyph} {content : Repeat}
    (read : readRepeat glyphs = some (content, rest)) :
    readItems none glyphs = (readItems none rest).map (.bare content :: ·) :=
  readItems_repeat read

theorem readItems_inner {inner : List Repeat} {glyphs rest : List Glyph} {content : Repeat}
    (read : readRepeat glyphs = some (content, rest)) :
    readItems (some inner) glyphs = readItems (some (inner ++ [content])) rest :=
  readItems_repeat read

theorem uncounted_bare {c : Char} (uncounting : c ≠ '*' ∧ c ≠ '+' ∧ c ≠ '{')
    (rest : List Glyph) : Uncounted (.bare c :: rest) := by
  intro first same
  obtain rfl : c = first := by simpa using same
  exact uncounting

theorem uncounted_ofChar (c : Char) (rest : List Glyph) : Uncounted (Glyph.ofChar c :: rest) := by
  by_cases special : isMeta c = true
  · intro first same
    simp [Glyph.ofChar, special] at same
  · have ordinary : c ≠ '*' ∧ c ≠ '+' ∧ c ≠ '{' := by
      refine ⟨?_, ?_, ?_⟩ <;>
        · rintro rfl
          exact special (by decide)
    simpa [Glyph.ofChar, special] using uncounted_bare ordinary rest

theorem uncounted_body (pattern : Pattern) :
    Uncounted (Glyph.ofText (pattern.flatMap Piece.written ++ ['$'])) := by
  induction pattern with
  | nil => exact uncounted_bare (by decide) []
  | cons piece rest ih =>
      rw [List.flatMap_cons, List.append_assoc]
      cases piece with
      | literal content =>
          cases content with
          | nil => exact ih
          | cons c content =>
              rw [Piece.written, Glyph.ofText_escaped]
              exact uncounted_ofChar c _
      | capture shape =>
          rw [Piece.written, List.cons_append, List.cons_append, Glyph.ofText_cons (by decide)]
          exact uncounted_bare (by decide) _

theorem readItems_group (shape : Shape) (rest : Text) :
    readItems (some []) (Glyph.ofText (shape.written ++ ')' :: rest)) =
      (readItems none (Glyph.ofText rest)).map (.group shape.repeats :: ·) := by
  have closing (inner : List Repeat) : readItems (some inner) (Glyph.ofText (')' :: rest)) =
      (readItems none (Glyph.ofText rest)).map (.group inner :: ·) := by
    rw [Glyph.ofText_cons (by decide), readItems]
  cases shape with
  | run chars count =>
      rw [Shape.written, List.append_assoc, readItems_inner (readRepeat_counted chars count _)]
      exact closing _
  | decimal before after =>
      have point : Uncounted (Glyph.ofText
          (CharClass.digit.written ++ (after.quantifier ++ ')' :: rest))) := by
        have bracket : CharClass.digit.written = '[' :: "0-9]".toList := rfl
        rw [bracket, List.cons_append, Glyph.ofText_cons (by decide)]
        exact uncounted_bare (by decide) _
      have dot : (CharClass.only '.').written = escapeChar '.' := rfl
      simp only [Shape.written, List.append_assoc]
      rw [readItems_inner (readRepeat_counted .digit before _), dot,
        readItems_inner (readRepeat_once '.' point),
        readItems_inner (readRepeat_counted .digit after _)]
      exact closing _

theorem readItems_literal (content rest : Text) (uncounted : Uncounted (Glyph.ofText rest)) :
    readItems none (Glyph.ofText (escaped content ++ rest)) =
      (readItems none (Glyph.ofText rest)).map ((Piece.literal content).items ++ ·) := by
  induction content with
  | nil => simp [escaped, Piece.items]
  | cons c content ih =>
      have unfolded : escaped (c :: content) = escapeChar c ++ escaped content := rfl
      -- A quantifier in the literal itself is escaped and cannot count the character before.
      have following : Uncounted (Glyph.ofText (escaped content ++ rest)) := by
        rw [Glyph.ofText_escaped]
        cases content with
        | nil => exact uncounted
        | cons next content => exact uncounted_ofChar next _
      rw [unfolded, List.append_assoc, readItems_bare (readRepeat_once c following), ih]
      simp [Piece.items, Function.comp_def]

theorem readItems_body (pattern : Pattern) :
    readItems none (Glyph.ofText (pattern.flatMap Piece.written ++ ['$'])) =
      some pattern.expression := by
  induction pattern with
  | nil => simp [Glyph.ofText, readItems, Pattern.expression]
  | cons piece rest ih =>
      rw [List.flatMap_cons, List.append_assoc]
      cases piece with
      | literal content =>
          rw [Piece.written, readItems_literal content _ (uncounted_body rest), ih]
          rfl
      | capture shape =>
          rw [Piece.written, List.cons_append, List.cons_append, List.append_assoc,
            Glyph.ofText_cons (by decide), readItems, List.singleton_append, readItems_group, ih]
          rfl

/-- A pattern's text reads back as the expression that the pattern stands for. -/
theorem ofText?_written (pattern : Pattern) :
    ofText? pattern.written = some pattern.expression := by
  have start : pattern.written =
      '(' :: '?' :: 's' :: ')' :: '^' :: (pattern.flatMap Piece.written ++ ['$']) := rfl
  rw [start, ofText?, readItems_body]

end Expression
end Stencil
