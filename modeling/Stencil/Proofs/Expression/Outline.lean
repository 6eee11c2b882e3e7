import Stencil.Proofs.Expression.Reading

/-!
The outline of a pattern's text: its groups and what stands between them, found by
one rule, that a backslash quotes the character behind it. Nothing that a literal or
a class holds opens or closes a group, so the outline of a written pattern is the
pattern's own, piece by piece.
-/
namespace Stencil

/-- What stands between groups, without its quoting backslashes, or inside a group. -/
inductive Stretch where
  | literal (content : Text)
  | group (content : Text)
  deriving DecidableEq, Repr

def Stretch.group? : Stretch → Option Text
  | .literal _ => none
  | .group content => some content

namespace Glyph

def char : Glyph → Char
  | bare c => c
  | quoted c => c

def written : Glyph → Text
  | bare c => [c]
  | quoted c => ['\\', c]

def Inert (glyph : Glyph) : Prop := glyph ≠ bare '(' ∧ glyph ≠ bare ')'

theorem written_ofChar (c : Char) : (ofChar c).written = escapeChar c := by
  unfold ofChar escapeChar
  split <;> rfl

theorem char_ofChar (c : Char) : (ofChar c).char = c := by
  unfold ofChar
  split <;> rfl

theorem inert_ofChar (c : Char) : (ofChar c).Inert := by
  -- Both parentheses are among the characters that are escaped.
  have escapes (parenthesis : Char) (special : isMeta parenthesis = true) :
      ofChar c ≠ bare parenthesis := by
    unfold ofChar
    intro same
    split at same
    · simp at same
    next plain =>
    obtain rfl := Glyph.bare.inj same
    exact plain special
  exact ⟨escapes '(' (by decide), escapes ')' (by decide)⟩

end Glyph

namespace Outline

def push (c : Char) : List Stretch → List Stretch
  | .literal content :: rest => .literal (c :: content) :: rest
  | rest => .literal [c] :: rest

/-- The stretches of a text, if its groups are closed and not nested. `inside` is what
the open group holds so far. -/
def ofGlyphs? : Option Text → List Glyph → Option (List Stretch)
  | none, [] => some []
  | some _, [] => none
  | none, .bare '(' :: rest => ofGlyphs? (some []) rest
  | none, .bare ')' :: _ => none
  | none, glyph :: rest => (ofGlyphs? none rest).map (push glyph.char)
  | some _, .bare '(' :: _ => none
  | some inside, .bare ')' :: rest => (ofGlyphs? none rest).map (.group inside :: ·)
  | some inside, glyph :: rest => ofGlyphs? (some (inside ++ glyph.written)) rest

def ofText? (body : Text) : Option (List Stretch) := ofGlyphs? none (Glyph.ofText body)

theorem ofGlyphs?_outside {glyph : Glyph} (inert : glyph.Inert) (rest : List Glyph) :
    ofGlyphs? none (glyph :: rest) = (ofGlyphs? none rest).map (push glyph.char) := by
  rw [ofGlyphs?]
  · exact inert.1
  · exact inert.2

theorem ofGlyphs?_inside {glyphs : List Glyph} (inert : ∀ glyph ∈ glyphs, glyph.Inert)
    (inside : Text) (rest : List Glyph) :
    ofGlyphs? (some inside) (glyphs ++ rest) =
      ofGlyphs? (some (inside ++ glyphs.flatMap Glyph.written)) rest := by
  induction glyphs generalizing inside with
  | nil => simp
  | cons glyph glyphs ih =>
      have first := inert glyph (by simp)
      rw [List.cons_append, ofGlyphs?, ih fun other member => inert other (by simp [member])]
      · simp
      · exact first.1
      · exact first.2

theorem foldr_push {content : Text} (nonempty : content ≠ []) {rest : List Stretch}
    (apart : ∀ between, rest.head? ≠ some (.literal between)) :
    content.foldr push rest = .literal content :: rest := by
  induction content with
  | nil => exact absurd rfl nonempty
  | cons c content ih =>
      rw [List.foldr_cons]
      by_cases single : content = []
      · subst single
        rw [List.foldr_nil, push]
        rintro between behind rfl
        exact apart between rfl
      · rw [ih single]
        rfl

end Outline

/-- The text is read to its end, wherever it stands, and no glyph of it opens or closes
a group. -/
def Sealed (content : Text) : Prop :=
  ∃ glyphs : List Glyph, glyphs.flatMap Glyph.written = content ∧
    (∀ rest, Glyph.ofText (content ++ rest) = glyphs ++ Glyph.ofText rest) ∧
    ∀ glyph ∈ glyphs, glyph.Inert

theorem Sealed.append {front back : Text} (sealedFront : Sealed front) (sealedBack : Sealed back) :
    Sealed (front ++ back) := by
  rcases sealedFront with ⟨first, rfl, reads, inert⟩
  rcases sealedBack with ⟨second, rfl, readsBack, inertBack⟩
  refine ⟨first ++ second, by simp, fun rest => ?_, fun glyph member => ?_⟩
  · rw [List.append_assoc, reads, readsBack, List.append_assoc]
  · rcases List.mem_append.mp member with among | among
    · exact inert glyph among
    · exact inertBack glyph among

theorem sealed_plain {content : Text}
    (plain : ∀ c ∈ content, c ≠ '\\' ∧ c ≠ '(' ∧ c ≠ ')') : Sealed content := by
  have unquoted : '\\' ∉ content := fun member => (plain _ member).1 rfl
  refine ⟨content.map .bare, ?_, Glyph.ofText_append unquoted, fun glyph member => ?_⟩
  · simp [List.flatMap_map, Glyph.written]
  · rcases List.mem_map.mp member with ⟨c, among, rfl⟩
    rcases plain c among with ⟨-, unopened, unclosed⟩
    exact ⟨fun same => unopened (Glyph.bare.inj same), fun same => unclosed (Glyph.bare.inj same)⟩

theorem sealed_escapeChar (c : Char) : Sealed (escapeChar c) :=
  ⟨[.ofChar c], by simp [Glyph.written_ofChar], Glyph.ofText_escapeChar c,
    by simpa using Glyph.inert_ofChar c⟩

theorem CharClass.sealed_written (chars : CharClass) : Sealed chars.written := by
  cases chars with
  | noBrace => exact sealed_plain (by simp [written])
  | digit => exact sealed_plain (by simp [written])
  | except barred =>
      have opening : Sealed ['[', '^'] := sealed_plain (by simp)
      have closing : Sealed [']'] := sealed_plain (by simp)
      simpa [written] using (opening.append (sealed_escapeChar barred)).append closing
  | only allowed => exact sealed_escapeChar allowed

theorem sealed_number (number : Nat) : Sealed (Digits.written number) := by
  apply sealed_plain
  intro c member
  have digit := Digits.isDigit_of_mem_written member
  refine ⟨?_, ?_, ?_⟩ <;> rintro rfl <;> exact absurd digit (by decide)

theorem Count.sealed_quantifier (count : Count) : Sealed count.quantifier := by
  have counted (number : Nat) {closing : Text} (sealedClosing : Sealed closing) :
      Sealed ('{' :: Digits.written number ++ closing) := by
    have opening : Sealed ['{'] := sealed_plain (by simp)
    exact (opening.append (sealed_number number)).append sealedClosing
  have closing : Sealed ['}'] := sealed_plain (by simp)
  have closingOpen : Sealed [',', '}'] := sealed_plain (by simp)
  cases count with
  | exactly number positive => exact counted number.toNat closing
  | atLeast number =>
      have star : Sealed ['*'] := sealed_plain (by simp)
      have plus : Sealed ['+'] := sealed_plain (by simp)
      rw [quantifier]
      by_cases any : number = 0
      · rwa [if_pos any]
      by_cases one : number = 1
      · rwa [if_neg any, if_pos one]
      · rw [if_neg any, if_neg one]
        exact counted number.toNat closingOpen

theorem Shape.sealed_written (shape : Shape) : Sealed shape.written := by
  cases shape with
  | run chars count => exact chars.sealed_written.append count.sealed_quantifier
  | decimal before after =>
      have whole := CharClass.digit.sealed_written.append before.sealed_quantifier
      have point := whole.append (CharClass.only '.').sealed_written
      exact (point.append CharClass.digit.sealed_written).append after.sealed_quantifier

def Pattern.Spaced : Pattern → Prop
  | [] => True
  | .capture _ :: rest => Spaced rest
  | .literal content :: rest =>
      content ≠ [] ∧ (∀ between, rest.head? ≠ some (.literal between)) ∧ Spaced rest

def Piece.stretch : Piece → Stretch
  | .literal content => .literal content
  | .capture shape => .group shape.written

namespace Outline

theorem ofGlyphs?_literal (content rest : Text) :
    ofGlyphs? none (Glyph.ofText (escaped content ++ rest)) =
      (ofGlyphs? none (Glyph.ofText rest)).map (content.foldr push) := by
  rw [Glyph.ofText_escaped]
  induction content with
  | nil => simp
  | cons c content ih =>
      rw [List.map_cons, List.cons_append, ofGlyphs?_outside (Glyph.inert_ofChar c), ih,
        Glyph.char_ofChar, Option.map_map]
      rfl

theorem ofGlyphs?_group (shape : Shape) (rest : Text) :
    ofGlyphs? none (Glyph.ofText ((Piece.capture shape).written ++ rest)) =
      (ofGlyphs? none (Glyph.ofText rest)).map (.group shape.written :: ·) := by
  rcases shape.sealed_written with ⟨glyphs, same, reads, inert⟩
  rw [Piece.written, List.cons_append, List.cons_append, List.append_assoc,
    Glyph.ofText_cons (by decide), ofGlyphs?, reads, ofGlyphs?_inside inert, same,
    List.singleton_append, Glyph.ofText_cons (by decide), ofGlyphs?]
  rfl

/-- The outline of a pattern's text has one stretch for each piece. -/
theorem ofText?_written {pattern : Pattern} (spaced : pattern.Spaced) :
    ofText? (pattern.flatMap Piece.written) = some (pattern.map Piece.stretch) := by
  rw [ofText?]
  induction pattern with
  | nil => rfl
  | cons piece rest ih =>
      rw [List.flatMap_cons]
      cases piece with
      | literal content =>
          rcases spaced with ⟨nonempty, apart, spaced⟩
          have stretchesApart :
              ∀ between, (rest.map Piece.stretch).head? ≠ some (.literal between) := by
            rcases rest with _ | ⟨between | shape, behind⟩
            · simp
            · exact absurd rfl (apart between)
            · simp [Piece.stretch]
          rw [Piece.written, ofGlyphs?_literal, ih spaced, Option.map_some,
            foldr_push nonempty stretchesApart]
          rfl
      | capture shape =>
          rw [ofGlyphs?_group, ih spaced]
          rfl

end Outline
end Stencil
