import Stencil.Proofs.Reader.Rewriting
import Stencil.Proofs.Template.Failures

/-!
Why a template gives no reader. The template is cut, its slots are read, there has to
be a tag, no key may name both a value and a table around other values, and the
matcher has to take the pattern. The first of these stages that fails is reported,
whatever is wrong in the later ones, and a template that passes them all gives a reader.
-/
namespace Stencil

def Specifier.lengths (specifier : Specifier) : List UInt64 :=
  match specifier.extent with
  | .chars count => count.given?.toList
  | .point before after => before.given?.toList ++ after.given?.toList

def Tag.Overlong (tag : Tag) : Prop :=
  ∃ specifier, tag.specifier = some specifier ∧
    ∃ number ∈ specifier.lengths, lengthLimit < number.toNat

/-- What a matcher is relied on for: a pattern with a length that it cannot name is refused. -/
def Limited (refusal? : Pattern → Option Refusal) : Prop :=
  ∀ pattern : Pattern, pattern.nameable = false → ∃ refusal, refusal? pattern = some refusal

theorem Pattern.limited_refusal? : Limited Pattern.refusal? := by
  intro pattern unnameable
  exact ⟨.unreadable (String.ofList pattern.lengthReport), by simp [refusal?, unnameable]⟩

theorem Count.copies_of_given? {count : Count} {number : UInt64}
    (given : number ∈ count.given?.toList) : count.copies = number.toNat := by
  cases count with
  | atLeast least => simp [given?] at given
  | exactly length positive =>
      obtain rfl : number = length := by simpa [given?] using given
      rfl

/-- Each exact length of a tag stands in the tag's group. -/
theorem Tag.mem_copies_of_length {tag : Tag} {specifier : Specifier}
    (specified : tag.specifier = some specifier) {number : UInt64}
    (length : number ∈ specifier.lengths) : number.toNat ∈ tag.shape.copies := by
  rcases specifier with ⟨kind, count | ⟨before, after⟩⟩
  · have copies := Count.copies_of_given? length
    cases kind <;> simp [Tag.shape, specified, Shape.copies, copies]
  · simp only [Tag.shape, specified, Shape.copies]
    rcases List.mem_append.mp length with front | back
    · simp [Count.copies_of_given? front]
    · simp [Count.copies_of_given? back]

/-- A pattern with such a length in it cannot be named as a whole. -/
theorem Template.nameable_of_overlong {template : Template} {tag : Tag}
    (placed : tag ∈ template.tags) (overlong : tag.Overlong) :
    template.pattern.nameable = false := by
  obtain ⟨specifier, specified, number, length, great⟩ := overlong
  have copies := Tag.mem_copies_of_length specified length
  obtain ⟨part, member, tagged⟩ := List.mem_filterMap.mp placed
  cases part with
  | literal content => simp [Fragment.tag?] at tagged
  | tag other =>
      obtain rfl := Option.some.inj tagged
      rw [Pattern.nameable, List.all_eq_false]
      refine ⟨.capture other.shape, List.mem_map.mpr ⟨_, member, rfl⟩, fun all => ?_⟩
      have small := List.all_eq_true.mp all _ copies
      simp only [decide_eq_true_eq] at small
      omega

namespace Reader
section
variable {refusal? : Pattern → Option Refusal} {source : Text}

/-- The stages of a template on its way to a reader. Each fault is reported exactly if
its stage is the first to fail. -/
structure Stages (refusal? : Pattern → Option Refusal) (source : Text) : Prop where
  -- The whole template is cut before any slot of it is read.
  template : ∀ fault, compile refusal? source = .error (.template fault) ↔
    Token.ofTemplate source = .error fault ∨
      ∃ tokens, Token.ofTemplate source = .ok tokens ∧ Token.FirstFailure tokens fault
  noTags : compile refusal? source = .error .noTags ↔
    ∃ tokens, Token.ofTemplate source = .ok tokens ∧ ∀ hole, .slot hole ∉ tokens
  conflictingKey : (∃ path, compile refusal? source = .error (.conflictingKey path)) ↔
    ∃ template, Template.ofText source = .ok template ∧ template.Conflicting
  refused : ∀ refusal, compile refusal? source = .error (.ofRefusal refusal) ↔
    ∃ template, Template.ofText source = .ok template ∧ template.tags ≠ [] ∧
      ¬ template.Conflicting ∧ refusal? template.pattern = some refusal
  -- This refusal is certain, whatever else the matcher refuses.
  overlong : ∀ template, Template.ofText source = .ok template → ¬ template.Conflicting →
    (∃ tag ∈ template.tags, tag.Overlong) →
      ∃ refusal, compile refusal? source = .error (.ofRefusal refusal)
  accepted : ∀ reader, compile refusal? source = .ok reader ↔
    ∃ template, Template.ofText source = .ok template ∧ template.tags ≠ [] ∧
      ¬ template.Conflicting ∧ refusal? template.pattern = none ∧ reader = ⟨source, template⟩
  captures : ∀ reader, compile refusal? source = .ok reader →
    ∃ tokens tags, Token.ofTemplate source = .ok tokens ∧
      (tokens.filterMap Token.slot?).mapM Tag.ofSlot = .ok tags ∧
      reader.captures = tags.map Tag.capture

/-- The first stage that fails is reported, and only a template that passes all
of them gives a reader, with a capture for each tag. -/
theorem compile_stages (limited : Limited refusal?) (source : Text) :
    Stages refusal? source where
  template fault := by
    rw [compile_eq_error_iff, ← Template.ofText_eq_error_iff]
    simp [Template.check_ne_template]
  noTags := by
    rw [compile_eq_checked_iff (by simp)]
    simp only [Template.check_eq_noTags_iff, Template.exists_untagged_iff]
  conflictingKey := by
    have reported (path : Path) : compile refusal? source = .error (.conflictingKey path) ↔
        ∃ template, Template.ofText source = .ok template ∧
          template.check refusal? = .error (.conflictingKey path) :=
      compile_eq_checked_iff (by simp)
    constructor
    · rintro ⟨path, failed⟩
      obtain ⟨template, read, clash⟩ := (reported path).mp failed
      exact ⟨template, read, Template.exists_check_eq_conflictingKey_iff.mp ⟨path, clash⟩⟩
    · rintro ⟨template, read, conflict⟩
      obtain ⟨path, clash⟩ := Template.exists_check_eq_conflictingKey_iff.mpr conflict
      exact ⟨path, (reported path).mpr ⟨template, read, clash⟩⟩
  refused refusal := by
    rw [compile_eq_checked_iff (by simp)]
    simp only [Template.check_eq_ofRefusal_iff]
  overlong template read apart := by
    rintro ⟨tag, placed, overlong⟩
    obtain ⟨refusal, refused⟩ := limited _ (Template.nameable_of_overlong placed overlong)
    refine ⟨refusal, ?_⟩
    rw [compile_of_read read, map_eq_error_iff, Template.check_eq_ofRefusal_iff]
    exact ⟨List.ne_nil_of_mem placed, apart, refused⟩
  accepted reader := by
    simp only [compile_eq_ok_iff, Template.check_eq_ok_iff, and_assoc]
  captures reader compiled := by
    obtain ⟨template, read, -, rfl⟩ := compile_eq_ok_iff.mp compiled
    obtain ⟨tokens, cut, reads⟩ := Template.ofText_eq_ok_iff.mp read
    exact ⟨tokens, template.tags, cut, mapM_ofSlot_of_reads reads, rfl⟩

/-- A template with three faults: a blank tag, a length of zero and a tag without end. -/
def brokenSource : Text := "{{}} {{a: 0}} ".toList ++ ['{', '{', 'b']

def spoiledSource : Text := "{{a: 0}}{{}}".toList

def preciseSource : Text := "{{a}} {{b: 9.4294967296f}}".toList

def precise : Template := ⟨[
  .tag ⟨.last (.name ['a']), none, none, some ' ', 0⟩,
  .literal [' '],
  .tag ⟨.last (.name ['b']), some (.decimal (.exactly 9 (by decide))
    (.exactly 4294967296 (by decide))), some ' ', none, 6⟩]⟩

theorem broken_stages :
    Limited Pattern.refusal? ∧
    compile Pattern.refusal? brokenSource = .error (.template (.unterminated 14)) ∧
    compile Pattern.refusal? spoiledSource = .error (.template (.zeroLength ['0'])) ∧
    ∃ refusal, compile Pattern.refusal? preciseSource = .error (.ofRefusal refusal) := by
  have limited := Pattern.limited_refusal?
  refine ⟨limited, ?_, ?_, ?_⟩
  · apply ((compile_stages limited brokenSource).template _).mpr
    exact Or.inl (fault?_eq_some_iff.mp (by decide +kernel))
  · have cut : Token.ofTemplate spoiledSource = .ok
        [.slot ⟨"a: 0".toList, 0, none, none⟩, .slot ⟨[], 8, none, none⟩] := by
      apply toOption_eq_some_iff.mp
      decide +kernel
    have failed : Tag.ofSlot ⟨"a: 0".toList, 0, none, none⟩ = .error (.zeroLength ['0']) := by
      apply fault?_eq_some_iff.mp
      decide +kernel
    apply ((compile_stages limited spoiledSource).template _).mpr
    exact Or.inr ⟨_, cut, [], _, _, rfl, by simp, Tag.ofSlot_eq_error_iff.mp failed⟩
  · have read : Template.ofText preciseSource = .ok precise := by
      apply toOption_eq_some_iff.mp
      decide +kernel
    have apart : ¬ precise.Conflicting := Template.firstConflict?_tags_iff.mp (by decide +kernel)
    apply (compile_stages limited preciseSource).overlong precise read apart
    exact ⟨_, .tail _ (.head _), _, rfl, 4294967296, by decide, by decide⟩

end
end Reader
end Stencil
