import Stencil.Pattern.Cut
import Stencil.Proofs.Expression.Reading

/-!
The ways in which a pattern's expression matches are the cuts along the pattern,
and those with longer captures come first. So the first way that leaves nothing
is the preferred cut.
-/
namespace Stencil

theorem between_self (bound c : Char) : (bound ≤ c && c ≤ bound) = decide (c = bound) := by
  rw [Bool.eq_iff_iff]
  simp only [Bool.and_eq_true, decide_eq_true_eq]
  constructor
  · intro bounds
    exact Char.le_antisymm bounds.2 bounds.1
  · rintro rfl
    exact ⟨Char.le_refl c, Char.le_refl c⟩

theorem CharClass.set_holds (chars : CharClass) (c : Char) : chars.set.holds c = chars.holds c := by
  cases chars with
  | noBrace => simp [set, CharSet.holds, holds, between_self]
  | digit => simp [set, CharSet.holds, holds, Char.isDigit, Char.le_def]
  | except barred => simp [set, CharSet.holds, holds, between_self]
  | only allowed => simp [set, CharSet.holds, holds, between_self]

namespace CharSet

def Spans (more : Bool) (least length : Nat) : Prop :=
  if more then least ≤ length else length = least

theorem mem_ways {set : CharSet} {more : Bool} {least : Nat} {input taken left : Text} :
    (taken, left) ∈ set.ways more least input ↔
      input = taken ++ left ∧ (∀ c ∈ taken, set.holds c = true) ∧
        Spans more least taken.length := by
  induction input generalizing least taken with
  | nil =>
      cases least with
      | zero =>
          simp only [ways, List.mem_singleton, Prod.mk.injEq, List.nil_eq, List.append_eq_nil_iff]
          constructor
          · rintro ⟨rfl, rfl⟩
            simp [Spans]
          · intro split
            exact split.1
      | succ least =>
          cases taken <;> simp [ways, Spans]
  | cons c rest ih =>
      cases taken with
      | nil =>
          cases least with
          | zero =>
              have stopped : (([] : Text), left) ∈ set.ways more 0 (c :: rest) ↔
                  left = c :: rest := by
                by_cases held : (more && set.holds c) = true <;> simp [ways, held]
              simpa [stopped, Spans] using eq_comm
          | succ least =>
              by_cases held : set.holds c = true <;> simp [ways, held, Spans]
      | cons d taken =>
          -- One character more is taken the same way, whether or not it is still owed.
          have onward (before : Nat) (carries : Spans more before taken.length ↔
              Spans more least (d :: taken).length) :
              (d :: taken, left) ∈ (set.ways more before rest).map
                  (fun way => (c :: way.1, way.2)) ∧ set.holds c = true ↔
                c :: rest = d :: taken ++ left ∧ (∀ other ∈ d :: taken, set.holds other = true) ∧
                  Spans more least (d :: taken).length := by
            rw [← carries]
            simp only [List.mem_map, Prod.exists, Prod.mk.injEq, List.cons.injEq,
              List.cons_append, List.forall_mem_cons]
            constructor
            · rintro ⟨⟨_, _, member, ⟨rfl, rfl⟩, rfl⟩, held⟩
              rcases ih.mp member with ⟨rfl, all, spans⟩
              exact ⟨⟨rfl, rfl⟩, ⟨held, all⟩, spans⟩
            · rintro ⟨⟨rfl, rfl⟩, ⟨held, all⟩, spans⟩
              exact ⟨⟨_, _, ih.mpr ⟨rfl, all, spans⟩, ⟨rfl, rfl⟩, rfl⟩, held⟩
          cases least with
          | zero =>
              cases more with
              | false => simp [ways, Spans]
              | true =>
                  rw [← onward 0 (by simp [Spans])]
                  by_cases held : set.holds c = true <;> simp [ways, held]
          | succ least =>
              rw [← onward least (by cases more <;> simp [Spans])]
              by_cases held : set.holds c = true <;> simp [ways, held]

-- Longer stretches are tried before shorter ones.
theorem ways_shrink (set : CharSet) (more : Bool) (least : Nat) (input : Text) :
    (set.ways more least input).Pairwise fun first later => later.1.length < first.1.length := by
  induction input generalizing least with
  | nil => cases least <;> simp [ways]
  | cons c rest ih =>
      have onward (before : Nat) : ((set.ways more before rest).map fun way =>
          (c :: way.1, way.2)).Pairwise fun first later => later.1.length < first.1.length := by
        rw [List.pairwise_map]
        exact (ih before).imp fun shorter => Nat.succ_lt_succ shorter
      cases least with
      | zero =>
          rw [ways, List.pairwise_append]
          refine ⟨?_, List.pairwise_singleton _ _, ?_⟩
          · by_cases held : (more && set.holds c) = true
            · simpa [held] using onward 0
            · simp [held]
          · intro first member last none
            obtain rfl := List.mem_singleton.mp none
            by_cases held : (more && set.holds c) = true
            · rw [if_pos held] at member
              rcases List.mem_map.mp member with ⟨way, -, rfl⟩
              simp
            · simp [held] at member
      | succ least =>
          rw [ways]
          by_cases held : set.holds c = true
          · simpa [held] using onward least
          · simp [held]

end CharSet

-- Two stretches of one kind that each end at a character of another kind, in
-- the same text, are the same stretch.
theorem stretch_unique {kind : Char → Bool} {front other back behind : Text} {stop halt : Char}
    (frontKind : ∀ c ∈ front, kind c = true) (otherKind : ∀ c ∈ other, kind c = true)
    (stops : kind stop = false) (halts : kind halt = false)
    (same : front ++ stop :: back = other ++ halt :: behind) : front = other := by
  have taken := congrArg (List.takeWhile kind) same
  rw [List.takeWhile_append_of_pos frontKind, List.takeWhile_append_of_pos otherKind] at taken
  simpa [stops, halts] using taken

theorem Count.spans_iff (count : Count) (length : Nat) :
    CharSet.Spans count.times.2 count.times.1 length ↔ count.Allows length := by
  cases count <;> simp [Count.times, CharSet.Spans, Count.Allows]

theorem mem_ways_repeated {chars : CharClass} {count : Count} {input taken left : Text} :
    (taken, left) ∈ (chars.repeated count.times).ways input ↔
      input = taken ++ left ∧ IsRun chars count taken := by
  simp only [Repeat.ways, CharClass.repeated, CharSet.mem_ways, CharClass.set_holds,
    Count.spans_iff, IsRun]

theorem ways_once (c : Char) (input : Text) :
    ((CharClass.only c).repeated (1, false)).ways input =
      if input.head? = some c then [([c], input.drop 1)] else [] := by
  cases input with
  | nil => simp [Repeat.ways, CharClass.repeated, CharSet.ways]
  | cons d rest =>
      have stopped : (CharClass.only c).set.ways false 0 rest = [([], rest)] := by
        cases rest <;> simp [CharSet.ways]
      by_cases same : d = c
      · subst same
        simp [Repeat.ways, CharClass.repeated, CharSet.ways, CharClass.set_holds, CharClass.holds,
          stopped]
      · simp [Repeat.ways, CharClass.repeated, CharSet.ways, CharClass.set_holds, CharClass.holds,
          same]

theorem mem_ways_once {c : Char} {input taken left : Text} :
    (taken, left) ∈ ((CharClass.only c).repeated (1, false)).ways input ↔
      taken = [c] ∧ input = c :: left := by
  rw [ways_once]
  cases input with
  | nil => simp
  | cons d rest =>
      by_cases same : d = c
      · simp [same, eq_comm]
      · simp [same]

theorem mem_sequenceWays_cons {first : Repeat} {others : List Repeat} {input taken left : Text} :
    (taken, left) ∈ sequenceWays (first :: others) input ↔
      ∃ front middle back, (front, middle) ∈ first.ways input ∧
        (back, left) ∈ sequenceWays others middle ∧ taken = front ++ back := by
  simp only [sequenceWays, List.mem_flatMap, List.mem_map, Prod.exists, Prod.mk.injEq]
  constructor
  · rintro ⟨front, middle, first, back, _, second, rfl, rfl⟩
    exact ⟨front, middle, back, first, second, rfl⟩
  · rintro ⟨front, middle, back, first, second, rfl⟩
    exact ⟨front, middle, first, back, left, second, rfl, rfl⟩

theorem mem_sequenceWays_nil {input taken left : Text} :
    (taken, left) ∈ sequenceWays [] input ↔ taken = [] ∧ input = left := by
  simp [sequenceWays, eq_comm]

theorem sequenceWays_single (content : Repeat) (input : Text) :
    sequenceWays [content] input = content.ways input := by
  simp [sequenceWays]

namespace Shape

theorem mem_ways {shape : Shape} {input taken left : Text} :
    (taken, left) ∈ sequenceWays shape.repeats input ↔
      input = taken ++ left ∧ shape.Fits taken := by
  cases shape with
  | run chars count =>
      simp only [repeats, mem_sequenceWays_cons, mem_sequenceWays_nil, mem_ways_repeated, Fits]
      constructor
      · rintro ⟨front, middle, _, ⟨rfl, run⟩, ⟨rfl, rfl⟩, rfl⟩
        simpa using run
      · rintro ⟨rfl, run⟩
        exact ⟨taken, left, [], ⟨rfl, run⟩, ⟨rfl, rfl⟩, by simp⟩
  | decimal before after =>
      simp only [repeats, mem_sequenceWays_cons, mem_sequenceWays_nil, mem_ways_repeated,
        mem_ways_once, Fits]
      constructor
      · rintro ⟨whole, _, _, ⟨rfl, wholeRun⟩, ⟨_, _, _, ⟨rfl, rfl⟩,
          ⟨fraction, _, _, ⟨rfl, fractionRun⟩, ⟨rfl, rfl⟩, rfl⟩, rfl⟩, rfl⟩
        exact ⟨by simp, whole, fraction, by simp, wholeRun, fractionRun⟩
      · rintro ⟨rfl, whole, fraction, rfl, wholeRun, fractionRun⟩
        exact ⟨whole, '.' :: fraction ++ left, '.' :: fraction, ⟨by simp, wholeRun⟩,
          ⟨['.'], fraction ++ left, fraction, ⟨rfl, by simp⟩,
            ⟨fraction, left, [], ⟨rfl, fractionRun⟩, ⟨rfl, rfl⟩, by simp⟩, by simp⟩, rfl⟩

theorem repeat_shrink (content : Repeat) (input : Text) :
    (sequenceWays [content] input).Pairwise fun first later =>
      later.1.length < first.1.length := by
  rw [sequenceWays_single]
  exact CharSet.ways_shrink content.set content.more content.least input

theorem point_shrink (content : Repeat) (input : Text) :
    (sequenceWays [(CharClass.only '.').repeated (1, false), content] input).Pairwise
      fun first later => later.1.length < first.1.length := by
  rw [sequenceWays, ways_once]
  by_cases point : input.head? = some '.'
  · simp only [point, ↓reduceIte, List.flatMap_cons, List.flatMap_nil, List.append_nil,
      List.pairwise_map]
    exact (repeat_shrink content _).imp fun shorter => Nat.succ_lt_succ shorter
  · simp [point]

-- A capture is tried longest first. In a decimal the digits before the point
-- have only one end, so no longer capture comes from a shorter first run.
theorem ways_shrink (shape : Shape) (input : Text) :
    (sequenceWays shape.repeats input).Pairwise fun first later =>
      later.1.length < first.1.length := by
  cases shape with
  | run chars count => exact repeat_shrink _ input
  | decimal before after =>
      rw [repeats, sequenceWays, List.pairwise_flatMap]
      constructor
      · intro way _
        rw [List.pairwise_map]
        exact (point_shrink _ way.2).imp fun shorter => by simpa using shorter
      -- Two runs of digits in front of a point are the same run, so none is the longer.
      · have shrink := CharSet.ways_shrink CharClass.digit.set before.times.2 before.times.1 input
        refine shrink.imp_of_mem fun {first later} firstWay laterWay shorter => ?_
        rcases first with ⟨front, back⟩
        rcases later with ⟨other, behind⟩
        rcases mem_ways_repeated.mp firstWay with ⟨firstSplit, firstRun⟩
        rcases mem_ways_repeated.mp laterWay with ⟨laterSplit, laterRun⟩
        intro firstWhole firstMember laterWhole laterMember
        rcases List.mem_map.mp firstMember with ⟨⟨_, _⟩, firstPoint, -⟩
        rcases List.mem_map.mp laterMember with ⟨⟨_, _⟩, laterPoint, -⟩
        rcases mem_sequenceWays_cons.mp firstPoint with ⟨_, fraction, _, firstStop, -⟩
        rcases mem_sequenceWays_cons.mp laterPoint with ⟨_, decimals, _, laterStop, -⟩
        have firstEnd : back = '.' :: fraction := (mem_ways_once.mp firstStop).2
        have laterEnd : behind = '.' :: decimals := (mem_ways_once.mp laterStop).2
        have split : front ++ '.' :: fraction = other ++ '.' :: decimals := by
          rw [← firstEnd, ← laterEnd, ← firstSplit, laterSplit]
        have same : front = other :=
          stretch_unique firstRun.1 laterRun.1 (by decide) (by decide) split
        exact absurd shorter (by simp [same])

end Shape

theorem NoLonger.refl (lengths : List Nat) : NoLonger lengths lengths := by
  induction lengths with
  | nil => trivial
  | cons first rest ih => exact Or.inr ⟨rfl, ih⟩

namespace Pattern

theorem ways_literal (content : Text) (rest : Pattern) (input : Text) :
    (expression (.literal content :: rest)).ways input =
      if content.isPrefixOf input then (expression rest).ways (input.drop content.length)
      else [] := by
  induction content generalizing input with
  | nil => simp [expression, Piece.items]
  | cons c content ih =>
      have unfolded : expression (.literal (c :: content) :: rest) =
          .bare ((CharClass.only c).repeated (1, false)) ::
            expression (.literal content :: rest) := rfl
      rw [unfolded, Expression.ways, ways_once]
      cases input with
      | nil => simp
      | cons d input =>
          by_cases same : d = c
          · simp [same, ih]
          · simp [same, Ne.symm same]

theorem ways_capture (shape : Shape) (rest : Pattern) (input : Text) :
    (expression (.capture shape :: rest)).ways input =
      (sequenceWays shape.repeats input).flatMap fun way =>
        ((expression rest).ways way.2).map fun later => (way.1 :: later.1, later.2) := rfl

/-- The ways to match are the cuts of what is taken. -/
theorem mem_ways {pattern : Pattern} {input left : Text} {captured : List Text} :
    (captured, left) ∈ pattern.expression.ways input ↔
      ∃ front, input = front ++ left ∧ Cut pattern front captured := by
  induction pattern generalizing input captured with
  | nil =>
      simp only [expression, List.flatMap_nil, Expression.ways, List.mem_singleton,
        Prod.mk.injEq]
      constructor
      · rintro ⟨rfl, rfl⟩
        exact ⟨[], rfl, .done⟩
      · rintro ⟨front, split, cut⟩
        cases cut
        exact ⟨rfl, split.symm⟩
  | cons piece rest ih =>
      cases piece with
      | literal content =>
          rw [ways_literal]
          constructor
          · intro member
            by_cases starts : content.isPrefixOf input = true
            · rcases List.isPrefixOf_iff_prefix.mp starts with ⟨following, rfl⟩
              rw [if_pos starts, List.drop_left, ih] at member
              rcases member with ⟨front, rfl, cut⟩
              exact ⟨content ++ front, by simp, .literal content cut⟩
            · simp [starts] at member
          · rintro ⟨_, rfl, cut⟩
            cases cut with
            | @literal _ following _ _ tail =>
                have starts : content.isPrefixOf (content ++ (following ++ left)) = true :=
                  List.isPrefixOf_iff_prefix.mpr (List.prefix_append content _)
                rw [List.append_assoc, if_pos starts, List.drop_left, ih]
                exact ⟨_, rfl, tail⟩
      | capture shape =>
          simp only [ways_capture, List.mem_flatMap, List.mem_map, Prod.exists, Prod.mk.injEq]
          constructor
          · rintro ⟨taken, middle, first, later, _, second, rfl, rfl⟩
            rcases Shape.mem_ways.mp first with ⟨rfl, fits⟩
            rcases ih.mp second with ⟨front, rfl, tail⟩
            exact ⟨taken ++ front, by simp, .capture fits tail⟩
          · rintro ⟨_, rfl, cut⟩
            cases cut with
            | capture fits tail =>
                refine ⟨_, _, Shape.mem_ways.mpr ⟨List.append_assoc _ _ _, fits⟩, _, left, ?_,
                  rfl, rfl⟩
                exact ih.mpr ⟨_, rfl, tail⟩

-- Ways with longer captures come first, where the first difference counts.
theorem ways_shrink (pattern : Pattern) (input : Text) :
    (pattern.expression.ways input).Pairwise fun first later =>
      NoLonger (later.1.map List.length) (first.1.map List.length) := by
  induction pattern generalizing input with
  | nil => exact List.pairwise_singleton _ _
  | cons piece rest ih =>
      cases piece with
      | literal content =>
          rw [ways_literal]
          by_cases starts : content.isPrefixOf input = true
          · simpa [starts] using ih _
          · simp [starts]
      | capture shape =>
          rw [ways_capture, List.pairwise_flatMap]
          constructor
          · intro way _
            rw [List.pairwise_map]
            exact (ih way.2).imp fun shorter => Or.inr ⟨rfl, shorter⟩
          · refine (shape.ways_shrink input).imp fun {first later} shorter => ?_
            intro firstWhole firstMember laterWhole laterMember
            rcases List.mem_map.mp firstMember with ⟨_, -, rfl⟩
            rcases List.mem_map.mp laterMember with ⟨_, -, rfl⟩
            exact Or.inl shorter

end Pattern
end Stencil
