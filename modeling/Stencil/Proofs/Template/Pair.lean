import Stencil.Template.Token

/-!
Two neighbouring copies of a mark. A text is cut at the first pair in it, and
the first pair is the one before which there is none, not even one that shares
a mark with it.
-/
namespace Stencil

def HasPair (mark : Char) (content : Text) : Prop := [mark, mark] <:+: content

section
variable {mark : Char}

theorem HasPair.mono {part content : Text} (pair : HasPair mark part) (within : part <:+: content) :
    HasPair mark content :=
  pair.trans within

@[simp] theorem not_hasPair_nil : ¬ HasPair mark [] := by
  simp [HasPair]

@[simp] theorem not_hasPair_single (c : Char) : ¬ HasPair mark [c] := by
  intro pair
  have short := pair.length_le
  simp at short

theorem hasPair_cons_cons {first second : Char} {rest : Text} :
    HasPair mark (first :: second :: rest) ↔
      (first = mark ∧ second = mark) ∨ HasPair mark (second :: rest) := by
  rw [HasPair, List.infix_cons_iff, List.cons_prefix_cons, List.cons_prefix_cons]
  simp [HasPair, eq_comm]

theorem hasPair_pair (rest : Text) : HasPair mark (mark :: mark :: rest) :=
  hasPair_cons_cons.mpr (Or.inl ⟨rfl, rfl⟩)

theorem hasPair_iff {content : Text} :
    HasPair mark content ↔ ∃ front behind, content = front ++ mark :: mark :: behind := by
  simp [HasPair, List.IsInfix, eq_comm]

/-- A character other than the mark keeps the pairs on its two sides apart. -/
theorem hasPair_append_cons {c : Char} (other : c ≠ mark) (front back : Text) :
    HasPair mark (front ++ c :: back) ↔ HasPair mark front ∨ HasPair mark back := by
  induction front with
  | nil =>
      cases back with
      | nil => simp
      | cons d back => simp [hasPair_cons_cons, other]
  | cons first front ih =>
      cases front with
      | nil =>
          rw [List.cons_append, List.nil_append, hasPair_cons_cons]
          simpa [other] using ih
      | cons second front =>
          rw [List.cons_append, List.cons_append, hasPair_cons_cons, ← List.cons_append, ih,
            hasPair_cons_cons, or_assoc]

/-- One more copy of the mark makes a pair where the text ends in one. -/
theorem hasPair_concat (content : Text) :
    HasPair mark (content ++ [mark]) ↔ HasPair mark content ∨ content.getLast? = some mark := by
  induction content with
  | nil => simp
  | cons first content ih =>
      cases content with
      | nil => simp [hasPair_cons_cons]
      | cons second content =>
          rw [List.cons_append, List.cons_append, hasPair_cons_cons, ← List.cons_append, ih,
            hasPair_cons_cons, or_assoc, List.getLast?_cons_cons]

theorem cutPair_eq_none_iff {content : Text} :
    cutPair mark content = none ↔ ¬ HasPair mark content := by
  fun_induction cutPair mark content with
  | case1 first second rest marks => simp [hasPair_cons_cons, marks]
  | case2 first second rest apart ih => simp [hasPair_cons_cons, apart, ih]
  | case3 content short =>
      cases content with
      | nil => simp
      | cons first rest =>
          cases rest with
          | nil => simp
          | cons second rest => exact absurd rfl (short first second rest)

theorem cutPair_isSome_iff {content : Text} :
    (cutPair mark content).isSome = true ↔ HasPair mark content := by
  rw [Option.isSome_iff_ne_none, ne_eq, cutPair_eq_none_iff, Classical.not_not]

-- A mark more in front makes a pair only together with the next character.
theorem not_hasPair_cons {first second : Char} {front rest behind : Text}
    (apart : ¬ (first = mark ∧ second = mark)) (same : second :: rest = front ++ mark :: behind)
    (none : ¬ HasPair mark (front ++ [mark])) : ¬ HasPair mark (first :: front ++ [mark]) := by
  cases front with
  | nil =>
      obtain rfl : second = mark := by simpa using congrArg List.head? same
      simpa [hasPair_cons_cons] using apart
  | cons next front =>
      obtain rfl : second = next := by simpa using congrArg List.head? same
      rw [List.cons_append, List.cons_append, hasPair_cons_cons]
      exact not_or.mpr ⟨apart, none⟩

theorem not_hasPair_of_cutPair {content before after : Text}
    (found : cutPair mark content = some (before, after)) : ¬ HasPair mark (before ++ [mark]) := by
  fun_induction cutPair mark content generalizing before with
  | case1 first second rest marks =>
      obtain ⟨rfl, rfl⟩ := by simpa using found
      simp
  | case2 first second rest apart ih =>
      obtain ⟨⟨front, behind⟩, cut, same⟩ := Option.map_eq_some_iff.mp found
      obtain ⟨rfl, rfl⟩ := Prod.mk.inj same
      exact not_hasPair_cons apart (cutPair_eq_some cut) (ih cut)
  | case3 content short => simp at found

theorem cutPair_append {before : Text} (none : ¬ HasPair mark (before ++ [mark])) (after : Text) :
    cutPair mark (before ++ mark :: mark :: after) = some (before, after) := by
  induction before with
  | nil => simp [cutPair]
  | cons first before ih =>
      have tail : ¬ HasPair mark (before ++ [mark]) :=
        fun pair => none (pair.mono (List.suffix_cons first _).isInfix)
      cases before with
      | nil =>
          have different : first ≠ mark := by
            rintro rfl
            exact none (hasPair_pair [])
          simp [cutPair, different]
      | cons second before =>
          rw [List.cons_append, List.cons_append, hasPair_cons_cons] at none
          rw [List.cons_append, List.cons_append, cutPair, if_neg fun marks => none (Or.inl marks),
            ← List.cons_append, ih tail]
          rfl

/-- The cut is at the first pair. -/
theorem cutPair_eq_some_iff {content before after : Text} :
    cutPair mark content = some (before, after) ↔
      content = before ++ mark :: mark :: after ∧ ¬ HasPair mark (before ++ [mark]) := by
  constructor
  · intro found
    exact ⟨cutPair_eq_some found, not_hasPair_of_cutPair found⟩
  · rintro ⟨rfl, none⟩
    exact cutPair_append none after

/-- A text with a pair is cut at the first one, at the latest where a pair is known to be. -/
theorem exists_first_pair (mark : Char) (front behind : Text) :
    ∃ before between after, front = before ++ between ∧ ¬ HasPair mark (before ++ [mark]) ∧
      before ++ mark :: mark :: after = front ++ mark :: mark :: behind := by
  cases cut : cutPair mark (front ++ mark :: mark :: behind) with
  | none =>
      have pair : HasPair mark (front ++ mark :: mark :: behind) :=
        (hasPair_pair behind).mono (List.suffix_append front _).isInfix
      exact absurd pair (cutPair_eq_none_iff.mp cut)
  | some found =>
      rcases found with ⟨before, after⟩
      rcases cutPair_eq_some_iff.mp cut with ⟨same, none⟩
      rcases List.append_eq_append_iff.mp same with ⟨more, rfl, split⟩ | ⟨between, rfl, split⟩
      -- Were the front shorter, its own pair would come before the first one.
      · rcases more with _ | ⟨c, _ | ⟨d, more⟩⟩
        · exact ⟨front, [], after, by simp, by simpa using none, by simpa using same.symm⟩
        · obtain rfl : mark = c := by simpa using congrArg List.head? split
          exact absurd ((hasPair_pair []).mono ⟨front, [], by simp⟩) none
        · obtain ⟨rfl, rfl, -⟩ : mark = c ∧ mark = d ∧ _ := by simpa using split
          exact absurd ((hasPair_pair more).mono ⟨front, [mark], by simp⟩) none
      · exact ⟨before, between, after, rfl, none, same.symm⟩

/-- Pairs of different marks do not overlap: one of them comes before the other. -/
theorem pairs_apart {other : Char} (different : mark ≠ other) {front behind before inside : Text}
    (same : front ++ mark :: mark :: behind = before ++ other :: other :: inside) :
    (∃ between, before = front ++ mark :: mark :: between) ∨
      ∃ between, front = before ++ other :: other :: between := by
  induction front generalizing before with
  | nil =>
      rcases before with _ | ⟨first, _ | ⟨second, before⟩⟩
      · simp [different] at same
      · simp [different] at same
      · obtain ⟨rfl, rfl, -⟩ : mark = first ∧ mark = second ∧ _ := by simpa using same
        exact Or.inl ⟨before, rfl⟩
  | cons c front ih =>
      cases before with
      | nil =>
          cases front with
          | nil => simp [different] at same
          | cons d front =>
              obtain ⟨rfl, rfl, -⟩ : c = other ∧ d = other ∧ _ := by simpa using same
              exact Or.inr ⟨front, rfl⟩
      | cons d before =>
          obtain ⟨rfl, tails⟩ : c = d ∧ _ := by simpa using same
          rcases ih (by simpa using tails) with ⟨between, rfl⟩ | ⟨between, rfl⟩
          · exact Or.inl ⟨between, rfl⟩
          · exact Or.inr ⟨between, rfl⟩

end
end Stencil
