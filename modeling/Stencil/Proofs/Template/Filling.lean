import Stencil.Proofs.Expression.Ways
import Stencil.Proofs.Template.Division

/-!
Filling the tags of a template with texts. When every tag is delimited, because
its length is exact, because it is the last part, or because the literal behind
it starts with a character that the tag cannot take, a filled template can be
divided in one way only: the texts come back.
-/
namespace Stencil

def Fills : List Fragment → List Text → Prop
  | [], texts => texts = []
  | .literal _ :: rest, texts => Fills rest texts
  | .tag tag :: rest, content :: texts => tag.Takes (following? rest) content ∧ Fills rest texts
  | .tag _ :: _, [] => False

def fill : List Fragment → List Text → Text
  | .literal content :: rest, texts => content ++ fill rest texts
  | .tag _ :: rest, content :: texts => content ++ fill rest texts
  | _, _ => []

def Tag.Exact (tag : Tag) : Prop :=
  match tag.specifier with
  | some ⟨_, .chars (.exactly _ _)⟩ => True
  | some ⟨_, .point _ (.exactly _ _)⟩ => True
  | _ => False

/-- The tag cannot take the character at its end. A tag without a specifier
takes anything but the character behind it. -/
def Tag.StopsBefore (tag : Tag) (c : Char) : Prop :=
  match tag.specifier with
  | none => True
  | some ⟨_, .point _ _⟩ => c.isDigit = false
  | some ⟨.digits, .chars _⟩ => c.isDigit = false
  | some ⟨_, .chars _⟩ => c = '{' ∨ c = '}'

def Tag.Delimited (tag : Tag) (rest : List Fragment) : Prop :=
  tag.Exact ∨ rest = [] ∨ ∃ c, following? rest = some c ∧ tag.StopsBefore c

def Delimited : List Fragment → Prop
  | [] => True
  | .literal _ :: rest => Delimited rest
  | .tag tag :: rest => tag.Delimited rest ∧ Delimited rest

theorem division_of_fills {parts : List Fragment} {texts : List Text}
    (fills : Fills parts texts) : Division parts (fill parts texts) texts := by
  induction parts generalizing texts with
  | nil =>
      obtain rfl : texts = [] := fills
      exact .done
  | cons part rest ih =>
      cases part with
      | literal content => exact .literal content (ih fills)
      | tag tag =>
          cases texts with
          | nil => exact fills.elim
          | cons content texts => exact .tag fills.1 (ih fills.2)

/-- A divided input is what filling the tags with their texts gives. -/
theorem fill_of_division {parts : List Fragment} {input : Text} {captured : List Text}
    (division : Division parts input captured) : fill parts captured = input := by
  induction division with
  | done => rfl
  | literal content tail ih => rw [fill, ih]
  | tag takes tail ih => rw [fill, ih]

theorem starts_with_following {parts : List Fragment} {c : Char} {input : Text}
    {captured : List Text} (follows : following? parts = some c)
    (division : Division parts input captured) : ∃ later, input = c :: later := by
  cases division with
  | done => simp [following?] at follows
  | tag takes tail => simp [following?] at follows
  | @literal _ behind _ content tail =>
      cases content with
      | nil => simp [following?] at follows
      | cons first content =>
          obtain rfl : first = c := by simpa [following?] using follows
          exact ⟨content ++ behind, rfl⟩

-- The digits before a point end at the point.
theorem point_unique {whole other fraction decimals behind behindOther : Text}
    {before after : Count} (wholeRun : DigitRun before whole) (otherRun : DigitRun after other)
    (same : whole ++ '.' :: fraction ++ behind = other ++ '.' :: decimals ++ behindOther) :
    whole = other ∧ fraction ++ behind = decimals ++ behindOther := by
  have split : whole ++ '.' :: (fraction ++ behind) =
      other ++ '.' :: (decimals ++ behindOther) := by
    simpa using same
  have wholes : whole = other :=
    stretch_unique wholeRun.1 otherRun.1 (by decide) (by decide) split
  subst wholes
  exact ⟨rfl, by simpa using split⟩

theorem Count.exactly_unique {number : UInt64} {positive : number ≠ 0} {first second : Nat}
    (one : (Count.exactly number positive).Allows first)
    (two : (Count.exactly number positive).Allows second) : first = second :=
  Eq.trans one (Eq.symm two)

-- With an exact length nothing behind the tag matters.
theorem Tag.exact_unique {tag : Tag} (exact : tag.Exact) {next : Option Char}
    {taken other behind behindOther : Text} (takes : tag.Takes next taken)
    (otherTakes : tag.Takes next other) (same : taken ++ behind = other ++ behindOther) :
    taken = other := by
  rcases tag with ⟨key, specifier, _, _, _⟩
  rcases specifier with _ | ⟨kind, count | ⟨before, after⟩⟩
  · exact exact.elim
  · cases count with
    | atLeast number => exact exact.elim
    | exactly number positive =>
        have length : taken.length = other.length := by
          cases kind <;> exact Count.exactly_unique takes.2 otherTakes.2
        exact List.append_inj_left same length
  · cases after with
    | atLeast number => exact exact.elim
    | exactly number positive =>
        rcases takes with ⟨whole, fraction, rfl, wholeRun, fractionRun⟩
        rcases otherTakes with ⟨otherWhole, decimals, rfl, otherRun, decimalsRun⟩
        rcases point_unique wholeRun otherRun same with ⟨rfl, fractions⟩
        have length := Count.exactly_unique fractionRun.2 decimalsRun.2
        rw [List.append_inj_left fractions length]

-- In front of a character that it cannot take, the tag has only one end.
theorem Tag.stop_unique {tag : Tag} {c : Char} (stops : tag.StopsBefore c)
    {taken other later laterOther : Text} (takes : tag.Takes (some c) taken)
    (otherTakes : tag.Takes (some c) other)
    (same : taken ++ c :: later = other ++ c :: laterOther) : taken = other := by
  rcases tag with ⟨key, specifier, _, _, _⟩
  rcases specifier with _ | ⟨kind, count | ⟨before, after⟩⟩
  · have barred : (CharClass.except c).holds c = false := by simp [CharClass.holds]
    exact stretch_unique ((except_all_iff c taken).mpr takes.2)
      ((except_all_iff c other).mpr otherTakes.2) barred barred same
  · have braces (stops : c = '{' ∨ c = '}') (first : NoBraces taken) (second : NoBraces other) :
        taken = other := by
      have barred : CharClass.noBrace.holds c = false := by
        rcases stops with rfl | rfl <;> decide
      exact stretch_unique ((noBrace_all_iff taken).mpr first) ((noBrace_all_iff other).mpr second)
        barred barred same
    cases kind with
    | digits => exact stretch_unique takes.1 otherTakes.1 stops stops same
    | text => exact braces stops takes.1 otherTakes.1
    | decimal => exact braces stops takes.1 otherTakes.1
  · rcases takes with ⟨whole, fraction, rfl, wholeRun, fractionRun⟩
    rcases otherTakes with ⟨otherWhole, decimals, rfl, otherRun, decimalsRun⟩
    rcases point_unique wholeRun otherRun same with ⟨rfl, fractions⟩
    rw [stretch_unique fractionRun.1 decimalsRun.1 stops stops fractions]

/-- Where all tags are delimited there is one division at most. -/
theorem division_unique {parts : List Fragment} (delimited : Delimited parts) {input : Text}
    {captured other : List Text} (division : Division parts input captured)
    (otherDivision : Division parts input other) : captured = other := by
  induction division generalizing other with
  | done =>
      cases otherDivision
      rfl
  | @literal rest behind captured content tail ih =>
      generalize whole : content ++ behind = input at otherDivision
      cases otherDivision with
      | literal _ otherTail =>
          obtain rfl := List.append_cancel_left whole
          exact ih delimited otherTail
  | @tag rest behind captured tag taken takes tail ih =>
      generalize whole : taken ++ behind = input at otherDivision
      cases otherDivision with
      | @tag _ behindOther capturedOther _ takenOther otherTakes otherTail =>
          -- The tag ends at the same place in both divisions, for one of three reasons.
          have same : taken = takenOther := by
            rcases delimited.1 with exact | rfl | ⟨c, follows, stops⟩
            · exact tag.exact_unique exact takes otherTakes whole
            · cases tail
              cases otherTail
              simpa using whole
            · rw [follows] at takes otherTakes
              rcases starts_with_following follows tail with ⟨later, rfl⟩
              rcases starts_with_following follows otherTail with ⟨laterOther, rfl⟩
              exact tag.stop_unique stops takes otherTakes whole
          subst same
          obtain rfl := List.append_cancel_left whole
          rw [ih delimited.2 otherTail]

end Stencil
