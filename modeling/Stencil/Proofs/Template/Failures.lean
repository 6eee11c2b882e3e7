import Stencil.Proofs.Template.Rewriting

/-!
Why a template cannot be read. A template that cannot be cut is refused whatever
stands in its slots; of the slots of one that can be cut, the first that cannot be
read is at fault, and in a slot the key comes before the specifier.
-/
namespace Stencil

/-- What is wrong with a slot. The specifier is looked at only behind a key that can
be read. -/
inductive Slot.Fails (hole : Slot) : TemplateFault → Prop
  | key {key : Text} {specifier : Option Text} {fault : TemplateFault}
      (split : splitColon (Text.trim hole.body) = (key, specifier))
      (failed : Path.ofText key hole.offset = .error fault) : Fails hole fault
  | specifier {key raw : Text} {path : Path} {fault : TemplateFault}
      (split : splitColon (Text.trim hole.body) = (key, some raw))
      (read : Path.ofText key hole.offset = .ok path)
      (failed : Specifier.ofText raw (Text.trim key) = .error fault) : Fails hole fault

theorem Tag.ofSlot_eq_error_iff {hole : Slot} {fault : TemplateFault} :
    Tag.ofSlot hole = .error fault ↔ hole.Fails fault := by
  rcases split : splitColon (Text.trim hole.body) with ⟨key, specifier⟩
  constructor
  · intro stopped
    simp only [Tag.ofSlot, split] at stopped
    rcases bind_eq_error_iff.mp stopped with failed | ⟨path, read, further⟩
    · exact .key split failed
    · cases specifier with
      | none => exact nomatch further
      | some raw =>
          rcases bind_eq_error_iff.mp further with failed | ⟨_, -, built⟩
          · exact .specifier split read failed
          · exact nomatch built
  · intro fails
    simp only [Tag.ofSlot, split]
    cases fails with
    | key other failed =>
        obtain ⟨rfl, rfl⟩ := Prod.mk.inj (split.symm.trans other)
        exact bind_eq_error_iff.mpr (Or.inl failed)
    | specifier other read failed =>
        obtain ⟨rfl, rfl⟩ := Prod.mk.inj (split.symm.trans other)
        exact bind_eq_error_iff.mpr
          (Or.inr ⟨_, read, bind_eq_error_iff.mpr (Or.inl failed)⟩)

def Token.FirstFailure (tokens : List Token) (fault : TemplateFault) : Prop :=
  ∃ earlier hole later, tokens = earlier ++ .slot hole :: later ∧
    (∀ other, .slot other ∈ earlier → ∀ found, ¬ other.Fails found) ∧ hole.Fails fault

theorem Fragment.ofToken_slot_eq_error_iff {hole : Slot} {fault : TemplateFault} :
    Fragment.ofToken (.slot hole) = .error fault ↔ hole.Fails fault := by
  rw [Fragment.ofToken, map_eq_error_iff, Tag.ofSlot_eq_error_iff]

/-- A token can be read unless it is a slot that fails. -/
theorem Fragment.exists_ofToken_iff {token : Token} :
    (∃ part, Fragment.ofToken token = .ok part) ↔
      ∀ hole, token = .slot hole → ∀ fault, ¬ hole.Fails fault := by
  cases token with
  | literal content => simp [Fragment.ofToken]
  | slot hole =>
      simp only [← Fragment.ofToken_slot_eq_error_iff, Token.slot.injEq, forall_eq']
      cases Fragment.ofToken (.slot hole) <;> simp

theorem Token.mapM_eq_error_iff {tokens : List Token} {fault : TemplateFault} :
    tokens.mapM Fragment.ofToken = .error fault ↔ FirstFailure tokens fault := by
  rw [Stencil.mapM_eq_error_iff]
  constructor
  · rintro ⟨earlier, token, later, rfl, fine, failed⟩
    cases token with
    | literal content => exact nomatch failed
    | slot hole =>
        refine ⟨earlier, hole, later, rfl, ?_, Fragment.ofToken_slot_eq_error_iff.mp failed⟩
        intro other member
        exact Fragment.exists_ofToken_iff.mp (fine _ member) other rfl
  · rintro ⟨earlier, hole, later, rfl, fine, failed⟩
    refine ⟨earlier, .slot hole, later, rfl, ?_, Fragment.ofToken_slot_eq_error_iff.mpr failed⟩
    intro token member
    apply Fragment.exists_ofToken_iff.mpr
    rintro other rfl
    exact fine other member

/-- The cutting has the first word, and the first failing slot the second. -/
theorem Template.ofText_eq_error_iff {source : Text} {fault : TemplateFault} :
    ofText source = .error fault ↔ Token.ofTemplate source = .error fault ∨
      ∃ tokens, Token.ofTemplate source = .ok tokens ∧ Token.FirstFailure tokens fault := by
  rw [ofText, bind_eq_error_iff]
  simp only [bind_eq_error_iff, Token.mapM_eq_error_iff, pure, Except.pure, reduceCtorEq,
    and_false, exists_false, or_false]

def Token.slot? : Token → Option Slot
  | .literal _ => none
  | .slot hole => some hole

/-- The slots, read one after the other, are the tags. -/
theorem mapM_ofSlot_of_reads {tokens : List Token} {parts : List Fragment}
    (reads : Reads tokens parts) :
    (tokens.filterMap Token.slot?).mapM Tag.ofSlot = .ok (parts.filterMap Fragment.tag?) := by
  induction reads with
  | done => rfl
  | literal content tail ih => exact ih
  | slot read tail ih => exact mapM_cons_eq_ok_iff.mpr ⟨_, _, read, ih, rfl⟩

theorem untagged_iff_of_reads {tokens : List Token} {parts : List Fragment}
    (reads : Reads tokens parts) :
    parts.filterMap Fragment.tag? = [] ↔ ∀ hole, .slot hole ∉ tokens := by
  induction reads with
  | done => simp
  | literal content tail ih => simpa [Fragment.tag?] using ih
  | @slot rest others hole tag read tail ih =>
      constructor
      · intro none
        simp [Fragment.tag?] at none
      · intro slotless
        exact absurd (.head rest) (slotless hole)

/-- Without a slot there is nothing that could fail, and no tag either. -/
theorem Template.exists_untagged_iff {source : Text} :
    (∃ template, ofText source = .ok template ∧ template.tags = []) ↔
      ∃ tokens, Token.ofTemplate source = .ok tokens ∧ ∀ hole, .slot hole ∉ tokens := by
  constructor
  · rintro ⟨template, read, none⟩
    obtain ⟨tokens, cut, reads⟩ := ofText_eq_ok_iff.mp read
    exact ⟨tokens, cut, (untagged_iff_of_reads reads).mp none⟩
  · rintro ⟨tokens, cut, slotless⟩
    cases tagged : tokens.mapM Fragment.ofToken with
    | error fault =>
        obtain ⟨earlier, hole, later, rfl, -⟩ := Token.mapM_eq_error_iff.mp tagged
        exact absurd (List.mem_append_right earlier (.head later)) (slotless hole)
    | ok parts =>
        have reads := mapM_ofToken_iff.mp tagged
        exact ⟨⟨parts⟩, ofText_eq_ok_iff.mpr ⟨tokens, cut, reads⟩,
          (untagged_iff_of_reads reads).mpr slotless⟩

end Stencil
