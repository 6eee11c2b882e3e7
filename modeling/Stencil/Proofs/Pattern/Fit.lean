import Stencil.Pattern.Fit
import Stencil.Proofs.Expression.Ways

/-!
The rows hold, for each suffix of the input, what a backtracking matcher finds
there. A row is therefore described as a function of the suffix, and each step
of the algorithm as what it does to that function. In the end the cut found in
one pass over the input is the one that backtracking finds first, which is the
preferred one.
-/
namespace Stencil

def firstReading (ways : List (Text × Text)) (behind : Text → Option Reading) :
    Option Reading :=
  ways.findSome? fun way => (behind way.2).map (Reading.longer way.1.length)

theorem findSome?_flatMap {Source Middle Result : Type} (sources : List Source)
    (middles : Source → List Middle) (found : Middle → Option Result) :
    (sources.flatMap middles).findSome? found =
      sources.findSome? fun source => (middles source).findSome? found := by
  induction sources with
  | nil => rfl
  | cons source rest ih =>
      rw [List.flatMap_cons, List.findSome?_append, ih, List.findSome?_cons]
      cases (middles source).findSome? found <;> rfl

theorem findSome?_congr {Source Result : Type} {sources : List Source}
    {found other : Source → Option Result}
    (same : ∀ source ∈ sources, found source = other source) :
    sources.findSome? found = sources.findSome? other := by
  induction sources with
  | nil => rfl
  | cons source rest ih =>
      rw [List.findSome?_cons, List.findSome?_cons, same source (by simp),
        ih fun later member => same later (by simp [member])]

theorem longer_longer (first second : Nat) (reading : Reading) :
    (reading.longer second).longer first = reading.longer (first + second) := by
  simp [Reading.longer, Nat.add_assoc]

theorem longer_zero (reading : Reading) : reading.longer 0 = reading := by
  simp [Reading.longer]

-- Taking two stretches one after the other is taking both at once.
theorem firstReading_flatMap (ways : List (Text × Text)) (others : Text → List (Text × Text))
    (behind : Text → Option Reading) :
    firstReading (ways.flatMap fun way =>
        (others way.2).map fun later => (way.1 ++ later.1, later.2)) behind =
      firstReading ways fun middle => firstReading (others middle) behind := by
  unfold firstReading
  rw [findSome?_flatMap]
  congr 1
  funext way
  rw [List.findSome?_map, List.map_findSome?]
  congr 1
  funext later
  simp [Function.comp_def, longer_longer]

/-! Rows as functions of the suffix. -/

theorem length_suffixes (input : Text) : (suffixes input).length = input.length + 1 := by
  induction input with
  | nil => rfl
  | cons c rest ih => simp [suffixes, ih]

theorem getElem?_suffixes (input : Text) (position : Nat) :
    (suffixes input)[position]? =
      if position ≤ input.length then some (input.drop position) else none := by
  induction input generalizing position with
  | nil => cases position <;> simp [suffixes]
  | cons c rest ih =>
      cases position with
      | zero => simp [suffixes]
      | succ position => simp [suffixes, ih]

theorem head?_suffixes (input : Text) : (suffixes input).head? = some input := by
  cases input <;> rfl

theorem ahead_map {Entry : Type} (count : Nat) (input : Text) (entry : Text → Option Entry) :
    Row.ahead count ((suffixes input).map entry) =
      (suffixes input).map fun suffix =>
        if count ≤ suffix.length then entry (suffix.drop count) else none := by
  -- Both rows are as long as the input, so they are compared position by position.
  apply List.ext_getElem?
  intro position
  have size := length_suffixes input
  unfold Row.ahead
  by_cases reached : position + count ≤ input.length
  · have inFront : position < (((suffixes input).map entry).drop count).length := by
      simp only [List.length_drop, List.length_map, size]
      omega
    have within : position ≤ input.length := by omega
    have enough : count ≤ input.length - position := by omega
    rw [List.getElem?_append_left inFront, List.getElem?_drop, List.getElem?_map,
      List.getElem?_map, getElem?_suffixes, getElem?_suffixes, Nat.add_comm count position,
      if_pos reached, if_pos within]
    simp [enough, List.drop_drop]
  -- Fewer characters than `count` are left here, or the position is none at all.
  · have behindFront : (((suffixes input).map entry).drop count).length ≤ position := by
      simp only [List.length_drop, List.length_map, size]
      omega
    rw [List.getElem?_append_right behindFront, List.getElem?_map, List.getElem?_take,
      List.getElem?_map, List.getElem?_map, getElem?_suffixes, getElem?_suffixes]
    simp only [List.length_drop, List.length_map, size]
    by_cases within : position ≤ input.length
    · have short : ¬ count ≤ input.length - position := by omega
      have inTake : position - (input.length + 1 - count) < count := by omega
      have inInput : position - (input.length + 1 - count) ≤ input.length := by omega
      simp [within, short, inTake, inInput]
    · have beyond : ¬ (position - (input.length + 1 - count) < count ∧
          position - (input.length + 1 - count) ≤ input.length) := by omega
      by_cases inTake : position - (input.length + 1 - count) < count
      · have beyondInput : ¬ position - (input.length + 1 - count) ≤ input.length :=
          fun inInput => beyond ⟨inTake, inInput⟩
        simp [within, inTake, beyondInput]
      · simp [within, inTake]

theorem runLengths_map (chars : CharClass) (input : Text) :
    runLengths chars input =
      (suffixes input).map fun suffix => (suffix.takeWhile chars.holds).length := by
  induction input with
  | nil => rfl
  | cons c rest ih =>
      have unfolded : runLengths chars (c :: rest) =
          (if chars.holds c then (runLengths chars rest).headD 0 + 1 else 0) ::
            runLengths chars rest := rfl
      rw [unfolded, ih]
      by_cases held : chars.holds c = true
      · cases rest <;> simp [suffixes, held]
      · simp [suffixes, held]

theorem ways_exactly (chars : CharClass) (count : Nat) (input : Text) :
    chars.set.ways false count input =
      if count ≤ (input.takeWhile chars.holds).length then
        [(input.take count, input.drop count)]
      else [] := by
  induction count generalizing input with
  | zero => cases input <;> simp [CharSet.ways]
  | succ count ih =>
      cases input with
      | nil => simp [CharSet.ways]
      | cons c rest =>
          by_cases held : chars.holds c = true
          · by_cases enough : count ≤ (rest.takeWhile chars.holds).length <;>
              simp [CharSet.ways, CharClass.set_holds, held, ih, enough]
          · simp [CharSet.ways, CharClass.set_holds, held]

theorem takeExactly_map (chars : CharClass) (count : Nat) (input : Text)
    (behind : Text → Option Reading) :
    takeExactly chars count input ((suffixes input).map behind) =
      (suffixes input).map fun suffix =>
        firstReading (chars.set.ways false count suffix) behind := by
  rw [takeExactly, runLengths_map, ahead_map, List.zipWith_map, List.zipWith_self]
  apply List.map_congr_left
  intro suffix _
  rw [ways_exactly]
  by_cases enough : count ≤ (suffix.takeWhile chars.holds).length
  · have within : count ≤ suffix.length :=
      Nat.le_trans enough (List.takeWhile_prefix chars.holds).length_le
    simp [firstReading, enough, within]
  · simp [firstReading, enough]

theorem firstReading_cons (c : Char) (ways : List (Text × Text))
    (behind : Text → Option Reading) :
    firstReading (ways.map fun way => (c :: way.1, way.2)) behind =
      (firstReading ways behind).map (Reading.longer 1) := by
  unfold firstReading
  rw [List.findSome?_map, List.map_findSome?]
  congr 1
  funext way
  simp [Function.comp_def, longer_longer, Nat.add_comm 1]

theorem firstReading_stop (ways : List (Text × Text)) (input : Text)
    (behind : Text → Option Reading) :
    firstReading (ways ++ [([], input)]) behind =
      (firstReading ways behind).or (behind input) := by
  have still : (behind input).map (Reading.longer 0) = behind input := by
    cases behind input with
    | none => rfl
    | some reading => exact congrArg some (longer_zero reading)
  simp [firstReading, List.findSome?_append, still]

theorem takeMany_map (chars : CharClass) (input : Text) (behind : Text → Option Reading) :
    takeMany chars input ((suffixes input).map behind) =
      (suffixes input).map fun suffix => firstReading (chars.set.ways true 0 suffix) behind := by
  induction input with
  | nil =>
      have stop := firstReading_stop [] [] behind
      simpa [takeMany, suffixes, CharSet.ways, firstReading] using stop.symm
  | cons c rest ih =>
      have unfolded : takeMany chars (c :: rest) ((suffixes (c :: rest)).map behind) =
          ((if chars.holds c then
              (takeMany chars rest ((suffixes rest).map behind)).head?.join
            else none).map (Reading.longer 1)).or (behind (c :: rest)) ::
            takeMany chars rest ((suffixes rest).map behind) := by
        simp only [takeMany, suffixes, List.map_cons, List.zip_cons_cons, List.foldr_cons]
        congr 1
        split <;> simp_all
      -- The head of the row behind is one more character taken; stopping here comes last.
      rw [unfolded, ih, List.head?_map, head?_suffixes, suffixes, List.map_cons, CharSet.ways,
        firstReading_stop]
      by_cases held : chars.holds c = true
      · simp [held, CharClass.set_holds, firstReading_cons]
      · simp [held, CharClass.set_holds, firstReading]

-- An open count is an exact one and then as many more as can be had.
theorem ways_atLeast (set : CharSet) (least : Nat) (input : Text) :
    set.ways true least input =
      (set.ways false least input).flatMap fun way =>
        (set.ways true 0 way.2).map fun later => (way.1 ++ later.1, later.2) := by
  induction least generalizing input with
  | zero => cases input <;> simp [CharSet.ways]
  | succ least ih =>
      cases input with
      | nil => simp [CharSet.ways]
      | cons c rest =>
          by_cases held : set.holds c = true
          · simp [CharSet.ways, held, ih, List.map_flatMap, List.flatMap_map, Function.comp_def]
          · simp [CharSet.ways, held]

theorem takeRun_map (chars : CharClass) (count : Count) (input : Text)
    (behind : Text → Option Reading) :
    takeRun chars count input ((suffixes input).map behind) =
      (suffixes input).map fun suffix =>
        firstReading ((chars.repeated count.times).ways suffix) behind := by
  cases count with
  | exactly number positive => exact takeExactly_map chars number.toNat input behind
  | atLeast number =>
      rw [takeRun, takeMany_map, takeExactly_map]
      apply List.map_congr_left
      intro suffix _
      rw [Repeat.ways, CharClass.repeated, Count.times, ways_atLeast, firstReading_flatMap]

theorem shape_take_map (shape : Shape) (input : Text) (behind : Text → Option Reading) :
    shape.take input ((suffixes input).map behind) =
      (suffixes input).map fun suffix =>
        firstReading (sequenceWays shape.repeats suffix) behind := by
  cases shape with
  | run chars count =>
      rw [Shape.take, takeRun_map]
      simp only [Shape.repeats, sequenceWays_single]
  | decimal before after =>
      rw [Shape.take, takeRun_map, takeExactly_map, takeRun_map]
      apply List.map_congr_left
      intro suffix _
      rw [Shape.repeats, sequenceWays, firstReading_flatMap]
      congr 1
      funext middle
      rw [sequenceWays, firstReading_flatMap]
      simp only [sequenceWays_single]
      rfl

namespace Pattern

def firstLengths? (pattern : Pattern) (input : Text) : Option (List Nat) :=
  (pattern.expression.ways input).findSome? fun way =>
    if way.2 = [] then some (way.1.map List.length) else none

theorem firstLengths?_literal (content : Text) (rest : Pattern) (input : Text) :
    firstLengths? (.literal content :: rest) input =
      if content.isPrefixOf input then firstLengths? rest (input.drop content.length)
      else none := by
  unfold firstLengths?
  rw [ways_literal]
  by_cases starts : content.isPrefixOf input = true <;> simp [starts]

theorem firstLengths?_capture (shape : Shape) (rest : Pattern) (input : Text) :
    firstLengths? (.capture shape :: rest) input =
      (firstReading (sequenceWays shape.repeats input)
        fun middle => (firstLengths? rest middle).map (Reading.mk 0)).map
          fun reading => reading.taken :: reading.behind := by
  unfold firstLengths? firstReading
  rw [ways_capture, findSome?_flatMap, List.map_findSome?]
  congr 1
  funext way
  simp only [List.findSome?_map, List.map_findSome?, Function.comp_def]
  congr 1
  funext later
  by_cases ended : later.2 = [] <;> simp [ended, Reading.longer]

/-- The row of a pattern holds what backtracking finds first at each suffix. -/
theorem row_map (pattern : Pattern) (input : Text) :
    pattern.row input = (suffixes input).map pattern.firstLengths? := by
  induction pattern with
  | nil =>
      apply List.map_congr_left
      intro suffix _
      simp [firstLengths?, expression, Expression.ways]
  | cons piece rest ih =>
      cases piece with
      | literal content =>
          rw [row, ih, ahead_map, List.zipWith_map_right, List.zipWith_self]
          apply List.map_congr_left
          intro suffix _
          rw [firstLengths?_literal]
          by_cases starts : content.isPrefixOf suffix = true
          · have within := (List.isPrefixOf_iff_prefix.mp starts).length_le
            simp [starts, within]
          · simp [starts]
      | capture shape =>
          rw [row, ih, List.map_map]
          simp only [Function.comp_def]
          rw [shape_take_map, List.map_map]
          apply List.map_congr_left
          intro suffix _
          rw [firstLengths?_capture]
          rfl

theorem lengths?_eq (pattern : Pattern) (input : Text) :
    pattern.lengths? input = pattern.firstLengths? input := by
  rw [lengths?, row_map, List.head?_map, head?_suffixes]
  rfl

-- The lengths of a cut tell its texts.
theorem captured_lengths {pattern : Pattern} {input : Text} {captured : List Text}
    (cut : Cut pattern input captured) :
    pattern.captured (captured.map List.length) input = captured := by
  induction cut with
  | done => rfl
  | literal content tail ih =>
      rw [Pattern.captured, List.drop_left, ih]
  | capture fits tail ih =>
      rw [List.map_cons, Pattern.captured, List.take_left, List.drop_left, ih]

theorem mem_whole_ways {pattern : Pattern} {input : Text} {captured : List Text} :
    (captured, []) ∈ pattern.expression.ways input ↔ Cut pattern input captured := by
  rw [mem_ways]
  constructor
  · rintro ⟨front, rfl, cut⟩
    simpa using cut
  · intro cut
    exact ⟨input, by simp, cut⟩

/-- What is found in one pass is what backtracking finds first. -/
theorem fit?_eq (pattern : Pattern) (input : Text) :
    pattern.fit? input = pattern.expression.firstMatch? input := by
  rw [fit?, lengths?_eq, firstLengths?, Expression.firstMatch?, List.map_findSome?]
  apply findSome?_congr
  rintro ⟨captured, left⟩ member
  by_cases ended : left = []
  · subst ended
    simp [captured_lengths (mem_whole_ways.mp member)]
  · simp [ended]

theorem fit?_preferred {pattern : Pattern} {input : Text} {captured : List Text}
    (fitted : pattern.fit? input = some captured) : PreferredCut pattern input captured := by
  rw [fit?_eq, Expression.firstMatch?, List.findSome?_eq_some_iff] at fitted
  rcases fitted with ⟨tried, ⟨first, left⟩, later, ways, found, failed⟩
  obtain ⟨rfl, rfl⟩ : left = [] ∧ first = captured := by simpa using found
  constructor
  · exact mem_whole_ways.mp (by simp [ways])
  · intro other cut
    have member := mem_whole_ways.mpr cut
    rw [ways, List.mem_append, List.mem_cons] at member
    -- A way before it would have been found, and one behind it has no longer captures.
    rcases member with before | same | after
    · exact absurd (failed _ before) (by simp)
    · rcases Prod.mk.inj same with ⟨rfl, -⟩
      exact NoLonger.refl _
    · have shrink := ways_shrink pattern input
      rw [ways, List.pairwise_append, List.pairwise_cons] at shrink
      exact shrink.2.1.1 _ after

theorem fit?_isSome_iff (pattern : Pattern) (input : Text) :
    (pattern.fit? input).isSome = true ↔ ∃ captured, Cut pattern input captured := by
  rw [fit?_eq, Expression.firstMatch?, List.findSome?_isSome_iff]
  constructor
  · rintro ⟨⟨captured, left⟩, member, found⟩
    cases left with
    | nil => exact ⟨captured, mem_whole_ways.mp member⟩
    | cons c left => simp at found
  · rintro ⟨captured, cut⟩
    exact ⟨(captured, []), mem_whole_ways.mpr cut, rfl⟩

theorem hasCut_eq (pattern : Pattern) (input : Text) :
    pattern.hasCut input = (pattern.fit? input).isSome := by
  simp [hasCut, fit?]

end Pattern
end Stencil
