import Stencil.Proofs.Steps
import Stencil.Proofs.Template.Paths

/-!
Every text names one path: its pieces between the dots, taken as they stand. So paths
can be compared by their texts. One is a parent of another exactly if the other's text
goes on with a dot where its own text ends.
-/
namespace Stencil

/-- A stretch without a dot ends at the first dot. -/
theorem dotted_prefix_iff {front other behind rest : Text} (frontUndotted : '.' ∉ front)
    (otherUndotted : '.' ∉ other) :
    front ++ '.' :: behind <+: other ++ '.' :: rest ↔ front = other ∧ behind <+: rest := by
  constructor
  · rintro ⟨more, same⟩
    rw [List.append_assoc, List.cons_append] at same
    have pieces := congrArg (List.splitOn '.') same
    rw [List.splitOn_append_cons_self_of_not_mem frontUndotted,
      List.splitOn_append_cons_self_of_not_mem otherUndotted] at pieces
    obtain rfl : front = other := (List.cons.inj pieces).1
    exact ⟨rfl, more, (List.cons.inj (List.append_cancel_left same)).2⟩
  · rintro ⟨rfl, start⟩
    exact (List.prefix_append_right_inj front).mpr (List.cons_prefix_cons.mpr ⟨rfl, start⟩)

theorem Key.Plain.eq_of_written {key other : Key} (plain : key.Plain) (otherPlain : other.Plain)
    (same : key.written = other.written) : key = other := by
  rw [← plain.read, same, otherPlain.read]

namespace Path

theorem Plain.step_iff {key : Key} {rest : Path} :
    (Path.step key rest).Plain ↔ key.Plain ∧ rest.Plain := by
  simp [Plain, segments]

theorem Plain.last_iff {key : Key} : (Path.last key).Plain ↔ key.Plain := by
  simp [Plain, segments]

/-- A plain path goes on below another exactly if its text goes on with a dot. -/
theorem isParentOf_iff_written {path other : Path} (plain : path.Plain)
    (otherPlain : other.Plain) :
    path.isParentOf other = true ↔ path.written ++ ['.'] <+: other.written := by
  induction path generalizing other with
  | last key =>
      rw [Plain.last_iff] at plain
      cases other with
      | last second =>
          rw [Plain.last_iff] at otherPlain
          have ends : ¬ key.written ++ ['.'] <+: second.written :=
            fun start => otherPlain.undotted (start.subset (by simp))
          simpa [isParentOf, written] using ends
      | step second others =>
          rw [Plain.step_iff] at otherPlain
          rw [written, written, dotted_prefix_iff plain.undotted otherPlain.1.undotted]
          simp only [isParentOf, decide_eq_true_eq, List.nil_prefix, and_true]
          exact ⟨congrArg Key.written, plain.eq_of_written otherPlain.1⟩
  | step key rest ih =>
      rw [Plain.step_iff] at plain
      cases other with
      | last second =>
          rw [Plain.last_iff] at otherPlain
          have ends : ¬ (key.written ++ '.' :: rest.written) ++ ['.'] <+: second.written :=
            fun start => otherPlain.undotted (start.subset (by simp))
          simpa [isParentOf, written] using ends
      | step second others =>
          rw [Plain.step_iff] at otherPlain
          rw [written, written, List.append_assoc, List.cons_append,
            dotted_prefix_iff plain.1.undotted otherPlain.1.undotted,
            ← ih plain.2 otherPlain.2]
          simp only [isParentOf, Bool.and_eq_true, decide_eq_true_eq]
          exact and_congr_left' ⟨congrArg Key.written, plain.1.eq_of_written otherPlain.1⟩

/-- The keys of a plain path are those that its text names, piece by piece. -/
theorem segments_of_plain {path : Path} (plain : path.Plain) :
    (path.written.splitOn '.').map Key.ofText = path.segments := by
  rw [splitOn_written plain, List.map_map]
  calc path.segments.map (Key.ofText ∘ Key.written)
      = path.segments.map id := List.map_congr_left fun key member => (plain key member).read
    _ = path.segments := List.map_id _

theorem Plain.eq_of_written {path other : Path} (plain : path.Plain) (otherPlain : other.Plain)
    (same : path.written = other.written) : path = other := by
  apply segments_injective
  rw [← segments_of_plain plain, same, segments_of_plain otherPlain]

theorem written_eq_intercalate (path : Path) :
    path.written = ['.'].intercalate (path.segments.map Key.written) := by
  induction path with
  | last key => rw [written, segments, List.map_singleton, List.intercalate_singleton]
  | step key rest ih =>
      have further : rest.segments.map Key.written ≠ [] := by
        cases rest <;> simp [segments]
      rw [written, segments, List.map_cons, List.intercalate_cons_of_ne_nil further, ih]
      simp

/-- Every text is the text of a plain path, though few are the text of a path that a
tag can have. -/
theorem exists_plain (content : Text) : ∃ path : Path, path.Plain ∧ path.written = content := by
  have nonempty : (content.splitOn '.').map Key.ofText ≠ [] := by
    simp
  obtain ⟨path, keys⟩ := exists_segments nonempty
  refine ⟨path, fun key member => ?_, ?_⟩
  · rw [keys] at member
    obtain ⟨piece, among, rfl⟩ := List.mem_map.mp member
    constructor <;> rw [Key.written_ofText]
    exact ((splitOn_pieces '.' content).2 piece among).1
  · have pieces : (content.splitOn '.').map (Key.written ∘ Key.ofText) = content.splitOn '.' := by
      simp [Function.comp_def, Key.written_ofText]
    rw [written_eq_intercalate, keys, List.map_map, pieces]
    exact List.intercalate_splitOn '.'

-- Behind a text that goes on without a dot, neither path is on the way of the other.
theorem not_isParentOf_of_undotted {path other : Path} (plain : path.Plain)
    (otherPlain : other.Plain) {c : Char} {rest : Text} (undotted : c ≠ '.')
    (same : other.written = path.written ++ c :: rest) :
    ¬ path.isParentOf other = true ∧ ¬ other.isParentOf path = true := by
  constructor
  · intro parent
    have start := (isParentOf_iff_written plain otherPlain).mp parent
    rw [same, List.prefix_append_right_inj] at start
    exact undotted (List.cons_prefix_cons.mp start).1.symm
  · intro parent
    have longer := ((isParentOf_iff_written otherPlain plain).mp parent).length_le
    rw [same] at longer
    simp only [List.length_append, List.length_cons] at longer
    omega

structure ParentsTold (path other : Path) : Prop where
  parent_iff : path.isParentOf other = true ↔ path.written ++ ['.'] <+: other.written
  irreflexive : ¬ path.isParentOf path = true
  transitive : ∀ third, path.isParentOf other = true → other.isParentOf third = true →
    path.isParentOf third = true
  oneWay : path.isParentOf other = true → ¬ other.isParentOf path = true
  -- It is not enough that one text starts with the other.
  undotted : ∀ c rest, c ≠ '.' → other.written = path.written ++ c :: rest →
    ¬ path.isParentOf other = true ∧ ¬ other.isParentOf path = true

/-- Among the paths that are read, the parents of a path are those whose text the text of the
path goes on from with a dot, so they are ordered, and a name is no parent of a longer name. -/
theorem parents_told {raw otherRaw : Text} {offset otherOffset : Nat} {path other : Path}
    (read : ofText raw offset = .ok path) (otherRead : ofText otherRaw otherOffset = .ok other) :
    ParentsTold path other := by
  have plain := (legal_of_ofText read).1.plain
  have otherPlain := (legal_of_ofText otherRead).1.plain
  constructor
  case parent_iff => exact isParentOf_iff_written plain otherPlain
  case irreflexive => exact isParentOf_irrefl path
  case transitive => exact fun third => isParentOf_trans
  case oneWay => exact isParentOf_asymm
  case undotted =>
    intro c rest differs same
    exact not_isParentOf_of_undotted plain otherPlain differs same

/-- Names and numbers that start with another are not below it, at any depth. -/
theorem shared_starts_told :
    ∃ foo foobar one twelve zero zeros below,
      ofText "foo".toList 0 = .ok foo ∧ ofText "foobar . x".toList 0 = .ok foobar ∧
      ofText ['1'] 0 = .ok one ∧ ofText "12.x".toList 0 = .ok twelve ∧
      ofText "a . 0".toList 0 = .ok zero ∧ ofText "a.00.x".toList 0 = .ok zeros ∧
      ofText "a.0.x".toList 0 = .ok below ∧
      ¬ foo.isParentOf foobar = true ∧ ¬ one.isParentOf twelve = true ∧
      ¬ zero.isParentOf zeros = true ∧ zero.isParentOf below = true := by
  have foo : ofText "foo".toList 0 = .ok (.last (.name "foo".toList)) :=
    toOption_eq_some_iff.mp (by decide +kernel)
  have foobar : ofText "foobar . x".toList 0 =
      .ok (.step (.name "foobar".toList) (.last (.name ['x']))) :=
    toOption_eq_some_iff.mp (by decide +kernel)
  have one : ofText ['1'] 0 = .ok (.last (.index 1)) :=
    toOption_eq_some_iff.mp (by decide +kernel)
  have twelve : ofText "12.x".toList 0 = .ok (.step (.index 12) (.last (.name ['x']))) :=
    toOption_eq_some_iff.mp (by decide +kernel)
  have zero : ofText "a . 0".toList 0 = .ok (.step (.name ['a']) (.last (.index 0))) :=
    toOption_eq_some_iff.mp (by decide +kernel)
  have zeros : ofText "a.00.x".toList 0 =
      .ok (.step (.name ['a']) (.step (.name ['0', '0']) (.last (.name ['x'])))) :=
    toOption_eq_some_iff.mp (by decide +kernel)
  have below : ofText "a.0.x".toList 0 =
      .ok (.step (.name ['a']) (.step (.index 0) (.last (.name ['x'])))) :=
    toOption_eq_some_iff.mp (by decide +kernel)
  refine ⟨_, _, _, _, _, _, _, foo, foobar, one, twelve, zero, zeros, below, ?_, ?_, ?_, ?_⟩
  · exact ((parents_told foo foobar).undotted 'b' "ar.x".toList (by decide) (by decide +kernel)).1
  · exact ((parents_told one twelve).undotted '2' ".x".toList (by decide) (by decide +kernel)).1
  · exact ((parents_told zero zeros).undotted '0' ".x".toList (by decide) (by decide +kernel)).1
  · exact (parents_told zero below).parent_iff.mpr (by decide +kernel)

end Path
end Stencil
