import Stencil.Proofs.Reader.Checks
import Stencil.Proofs.Template.Paths

/-!
Which conflict is reported. Two tags are in conflict if the key of one leads on from the
end of the other's, so tags with one key never are, however many they be. Of several
conflicts the one with the earliest tag counts, and of those of that tag the one with the
earliest partner.
-/
namespace Stencil
namespace Path

def Clashes (path other : Path) : Prop :=
  path.segments <+: other.segments ∧ path.segments ≠ other.segments ∨
    other.segments <+: path.segments ∧ other.segments ≠ path.segments

def shorter (path other : Path) : Path :=
  if path.segments.length < other.segments.length then path else other

theorem conflicts_iff {path other : Path} : path.conflicts other = true ↔ path.Clashes other := by
  simp only [conflicts, Bool.or_eq_true, isParentOf_iff, Clashes]

/-- A parent is the shorter one of the two. -/
theorem ite_isParentOf {path other : Path} (clash : path.Clashes other) :
    (if path.isParentOf other then path else other) = path.shorter other := by
  have parent_iff : path.isParentOf other = true ↔
      path.segments.length < other.segments.length := by
    rw [isParentOf_iff]
    constructor
    · rintro ⟨start, different⟩
      exact Nat.lt_of_le_of_ne start.length_le fun same => different (start.eq_of_length same)
    · intro less
      rcases clash with parent | ⟨start, -⟩
      · exact parent
      · exact absurd start.length_le (Nat.not_le.mpr less)
  by_cases less : path.segments.length < other.segments.length
  · rw [shorter, if_pos less, if_pos (parent_iff.mpr less)]
  · rw [shorter, if_neg less, if_neg fun parent => less (parent_iff.mp parent)]

end Path

structure ClashAt (paths : List Path) (front back : Nat) (path other : Path) : Prop where
  before : front < back
  first : paths[front]? = some path
  second : paths[back]? = some other
  clash : path.Clashes other

/-- The path is the shorter one of the first two paths that clash, by the place of the
one in front and then of the other. -/
def FirstClash (paths : List Path) (reported : Path) : Prop :=
  ∃ front back path other, ClashAt paths front back path other ∧
    (∀ front' back' path' other', ClashAt paths front' back' path' other' →
      front < front' ∨ front = front' ∧ back ≤ back') ∧
    reported = path.shorter other

theorem FirstClash.unique {paths : List Path} {path other : Path} (first : FirstClash paths path)
    (otherFirst : FirstClash paths other) : path = other := by
  obtain ⟨front, back, _, _, clash, least, rfl⟩ := first
  obtain ⟨front', back', _, _, clash', least', rfl⟩ := otherFirst
  have order := least _ _ _ _ clash'
  have order' := least' _ _ _ _ clash
  obtain rfl : front = front' := by omega
  obtain rfl : back = back' := by omega
  obtain rfl := Option.some.inj (clash.first.symm.trans clash'.first)
  obtain rfl := Option.some.inj (clash.second.symm.trans clash'.second)
  rfl

/-- A pair either has the first path in it or is one of the rest. -/
theorem clashAt_cons_iff {head path other : Path} {rest : List Path} {front back : Nat} :
    ClashAt (head :: rest) front back path other ↔
      (∃ behind, front = 0 ∧ back = behind + 1 ∧ head = path ∧ rest[behind]? = some other ∧
        head.Clashes other) ∨
      ∃ near far, front = near + 1 ∧ back = far + 1 ∧ ClashAt rest near far path other := by
  constructor
  · rintro ⟨before, first, second, clash⟩
    obtain _ | behind := back
    · exact absurd before (Nat.not_lt_zero front)
    · cases front with
      | zero =>
          obtain rfl : head = path := by simpa using first
          exact Or.inl ⟨behind, rfl, rfl, rfl, by simpa using second, clash⟩
      | succ near =>
          exact Or.inr ⟨near, behind, rfl, rfl,
            ⟨by omega, by simpa using first, by simpa using second, clash⟩⟩
  · rintro (⟨behind, rfl, rfl, rfl, second, clash⟩ | ⟨near, far, rfl, rfl, inner⟩)
    · exact ⟨Nat.succ_pos behind, rfl, by simpa using second, clash⟩
    · exact ⟨Nat.succ_lt_succ inner.before, by simpa using inner.first,
        by simpa using inner.second, inner.clash⟩

theorem firstClash_of_firstConflict? {paths : List Path} {reported : Path}
    (found : firstConflict? paths = some reported) : FirstClash paths reported := by
  induction paths with
  | nil => simp [firstConflict?] at found
  | cons head rest ih =>
      rw [firstConflict?] at found
      cases partner : rest.find? head.conflicts with
      | some other =>
          obtain ⟨conflict, behind, inside, here, earliest⟩ :=
            List.find?_eq_some_iff_getElem.mp partner
          have clash := Path.conflicts_iff.mp conflict
          simp only [partner, Path.ite_isParentOf clash, Option.some.injEq] at found
          refine ⟨0, behind + 1, head, other, clashAt_cons_iff.mpr (Or.inl ⟨behind, rfl, rfl, rfl,
            by rw [List.getElem?_eq_getElem inside, here], clash⟩), ?_, found.symm⟩
          intro front back path third otherClash
          rcases clashAt_cons_iff.mp otherClash with
            ⟨far, rfl, rfl, rfl, place, farClash⟩ | ⟨near, far, rfl, -, -⟩
          · refine Or.inr ⟨rfl, Nat.succ_le_succ (Nat.not_lt.mp fun less => ?_)⟩
            obtain ⟨bound, same⟩ := List.getElem?_eq_some_iff.mp place
            have apart := earliest far less
            rw [same, Path.conflicts_iff.mpr farClash] at apart
            exact absurd apart Bool.false_ne_true
          · exact Or.inl (Nat.succ_pos near)
      -- Without a partner the first path is in no pair, and each place moves up by one.
      | none =>
          simp only [partner] at found
          obtain ⟨front, back, path, other, clash, least, shorter⟩ := ih found
          refine ⟨front + 1, back + 1, path, other,
            clashAt_cons_iff.mpr (Or.inr ⟨front, back, rfl, rfl, clash⟩), ?_, shorter⟩
          intro front' back' path' other' otherClash
          rcases clashAt_cons_iff.mp otherClash with
            ⟨far, rfl, rfl, rfl, place, farClash⟩ | ⟨near, far, rfl, rfl, inner⟩
          · have apart := List.find?_eq_none.mp partner other' (List.mem_of_getElem? place)
            exact absurd (Path.conflicts_iff.mpr farClash) apart
          · have order := least near far path' other' inner
            omega

theorem firstConflict?_eq_some_iff {paths : List Path} {reported : Path} :
    firstConflict? paths = some reported ↔ FirstClash paths reported := by
  constructor
  · exact firstClash_of_firstConflict?
  · intro first
    cases found : firstConflict? paths with
    | some other => rw [(firstClash_of_firstConflict? found).unique first]
    | none =>
        obtain ⟨front, back, path, other, clash, -, -⟩ := first
        have apart := firstConflict?_eq_none_iff.mp found
        have placed := List.mem_of_getElem? clash.first
        have otherPlaced := List.mem_of_getElem? clash.second
        rcases clash.clash with parent | parent
        · exact absurd ((Path.isParentOf_iff _ _).mpr parent) (apart path placed other otherPlaced)
        · exact absurd ((Path.isParentOf_iff _ _).mpr parent) (apart other otherPlaced path placed)

-- The pair of the first tag is reported, though the pair between the two is closer.
example : firstConflict? [.step (.name ['x']) (.last (.index 0)), .last (.name ['z']),
    .step (.name ['z']) (.last (.index 1)), .last (.name ['x'])] = some (.last (.name ['x'])) := by
  decide

namespace Template
variable {refusal? : Pattern → Option Refusal} {template : Template}

def keys (template : Template) : List Path := template.tags.map Tag.key

theorem Conflicting.of_keys {other : Template} (conflict : other.Conflicting)
    (subset : other.keys ⊆ template.keys) : template.Conflicting := by
  refine Classical.byContradiction fun apart => ?_
  exact not_conflicting_iff.mpr ((not_conflicting_iff.mp apart).mono subset) conflict

structure KeysChecked (refusal? : Pattern → Option Refusal) (template : Template) : Prop where
  fails_iff : (∃ path, template.check refusal? = .error (.conflictingKey path)) ↔
    ∃ tag ∈ template.tags, ∃ other ∈ template.tags,
      tag.key.segments <+: other.key.segments ∧ tag.key.segments ≠ other.key.segments
  reported : ∀ path, template.check refusal? = .error (.conflictingKey path) ↔
    FirstClash template.keys path
  alike : (∀ tag ∈ template.tags, ∀ other ∈ template.tags, tag.key = other.key) →
    ∀ path, template.check refusal? ≠ .error (.conflictingKey path)
  -- It does not matter how many tags share a key, nor in which order they stand.
  repeated : ∀ other : Template, (∀ path, path ∈ other.keys ↔ path ∈ template.keys) →
    ((∃ path, other.check refusal? = .error (.conflictingKey path)) ↔
      ∃ path, template.check refusal? = .error (.conflictingKey path))
  passed : template.check refusal? = .ok () →
    ∀ path ∈ template.keys, ∀ other ∈ template.keys,
      path.segments <+: other.segments → path = other
  compiled : ∀ source, ofText source = .ok template → ∀ path,
    (Reader.compile refusal? source = .error (.conflictingKey path) ↔
      template.check refusal? = .error (.conflictingKey path))

/-- The check of the keys fails exactly on a key that leads on from another's end, and it
reports the first such pair. -/
theorem keysChecked_check (refusal? : Pattern → Option Refusal) (template : Template) :
    KeysChecked refusal? template where
  fails_iff := exists_check_eq_conflictingKey_iff
  reported path := check_eq_conflictingKey_iff.trans firstConflict?_eq_some_iff
  alike same path failed := by
    obtain ⟨tag, placed, other, otherPlaced, parent⟩ :=
      exists_check_eq_conflictingKey_iff.mp ⟨path, failed⟩
    exact parent.2 (by rw [same tag placed other otherPlaced])
  repeated other same := by
    rw [exists_check_eq_conflictingKey_iff, exists_check_eq_conflictingKey_iff]
    exact ⟨fun conflict => conflict.of_keys fun path => (same path).mp,
      fun conflict => conflict.of_keys fun path => (same path).mpr⟩
  passed passed path placed other otherPlaced start := by
    have apart := not_conflicting_iff.mp (check_eq_ok_iff.mp passed).2.1
    apply Path.segments_injective
    refine Classical.byContradiction fun different => ?_
    exact apart path placed other otherPlaced ((Path.isParentOf_iff _ _).mpr ⟨start, different⟩)
  compiled source read path := by
    rw [Reader.compile_eq_checked_iff (by simp), read]
    simp

end Template
end Stencil
