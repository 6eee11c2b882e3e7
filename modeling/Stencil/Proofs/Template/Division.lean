import Stencil.Pattern.Cut
import Stencil.Proofs.Steps
import Stencil.Template.Basic

/-!
What a template says about an input, without a pattern in between: the input is
divided among the parts, a literal gets itself and a tag gets a stretch that its
specifier allows. A tag without a specifier looks at the literal behind it, so
the parts have to tell the truth about their neighbours. Those of a template
that was read do.
-/
namespace Stencil

def following? : List Fragment → Option Char
  | .literal content :: _ => content.head?
  | _ => none

def NoBraces (content : Text) : Prop := '{' ∉ content ∧ '}' ∉ content

def DigitRun (count : Count) (content : Text) : Prop :=
  (∀ c ∈ content, c.isDigit = true) ∧ count.Allows content.length

def Tag.Takes (tag : Tag) (following : Option Char) (content : Text) : Prop :=
  match tag.specifier with
  | none =>
      match following with
      | some c => content ≠ [] ∧ c ∉ content
      | none => content ≠ [] ∧ NoBraces content
  | some ⟨_, .point before after⟩ =>
      ∃ whole fraction, content = whole ++ '.' :: fraction ∧
        DigitRun before whole ∧ DigitRun after fraction
  | some ⟨.digits, .chars count⟩ => DigitRun count content
  | some ⟨_, .chars count⟩ => NoBraces content ∧ count.Allows content.length

/-- The input is divided among the parts from its first character to its last,
and these texts are what the tags get. -/
inductive Division : List Fragment → Text → List Text → Prop
  | done : Division [] [] []
  | literal {rest : List Fragment} {behind : Text} {captured : List Text} (content : Text)
      (tail : Division rest behind captured) :
      Division (.literal content :: rest) (content ++ behind) captured
  | tag {rest : List Fragment} {behind : Text} {captured : List Text} {tag : Tag} {taken : Text}
      (takes : tag.Takes (following? rest) taken) (tail : Division rest behind captured) :
      Division (.tag tag :: rest) (taken ++ behind) (taken :: captured)

def Linked : List Fragment → Prop
  | [] => True
  | .literal _ :: rest => Linked rest
  | .tag tag :: rest => tag.after = following? rest ∧ Linked rest

def Token.Linked : List Token → Prop
  | [] => True
  | .literal _ :: rest => Linked rest
  | .slot hole :: rest => hole.after = leading? rest ∧ Linked rest

namespace Token

theorem linked_linked (before : Option Char) (tokens : List Token) :
    Linked (linked before tokens) := by
  induction tokens generalizing before with
  | nil => trivial
  | cons token rest ih =>
      cases token with
      | literal content => exact ih _
      | slot hole => exact ⟨(leading?_linked none rest).symm, ih none⟩

end Token

-- A tag stands where its slot stood.
theorem Tag.place_of_ofSlot {slot : Slot} {tag : Tag} (read : Tag.ofSlot slot = .ok tag) :
    tag.before = slot.before ∧ tag.after = slot.after ∧ tag.offset = slot.offset := by
  unfold Tag.ofSlot at read
  rcases bind_eq_ok_iff.mp read with ⟨path, -, read⟩
  split at read
  · cases read
    exact ⟨rfl, rfl, rfl⟩
  · rcases bind_eq_ok_iff.mp read with ⟨specifier, -, read⟩
    cases read
    exact ⟨rfl, rfl, rfl⟩

theorem linked_of_mapM {tokens : List Token} {parts : List Fragment}
    (read : tokens.mapM Fragment.ofToken = .ok parts) (linked : Token.Linked tokens) :
    Linked parts ∧ following? parts = Token.leading? tokens := by
  induction tokens generalizing parts with
  | nil =>
      cases read
      exact ⟨trivial, rfl⟩
  | cons token rest ih =>
      rcases mapM_cons_eq_ok_iff.mp read with ⟨part, others, first, more, rfl⟩
      cases token with
      | literal content =>
          cases first
          exact ⟨(ih more linked).1, rfl⟩
      | slot hole =>
          rcases map_eq_ok_iff.mp first with ⟨tag, slotRead, rfl⟩
          -- What follows a slot among the tokens follows its tag among the parts.
          rcases ih more linked.2 with ⟨tailLinked, sameNeighbour⟩
          have after := (Tag.place_of_ofSlot slotRead).2.1
          exact ⟨⟨by rw [after, linked.1, sameNeighbour], tailLinked⟩, rfl⟩

/-- In a template that was read every tag knows the character behind it. -/
theorem linked_of_ofText {source : Text} {template : Template}
    (read : Template.ofText source = .ok template) : Linked template.parts := by
  rcases bind_eq_ok_iff.mp read with ⟨tokens, cut, read⟩
  rcases bind_eq_ok_iff.mp read with ⟨parts, tagged, built⟩
  rcases map_eq_ok_iff.mp cut with ⟨scanned, -, rfl⟩
  cases built
  exact (linked_of_mapM tagged (Token.linked_linked none scanned)).1

theorem noBrace_all_iff (content : Text) :
    (∀ c ∈ content, CharClass.noBrace.holds c = true) ↔ NoBraces content := by
  simp only [CharClass.holds, Bool.and_eq_true, decide_eq_true_eq, NoBraces]
  constructor
  · intro all
    exact ⟨fun member => (all _ member).1 rfl, fun member => (all _ member).2 rfl⟩
  · rintro ⟨noOpening, noClosing⟩ c member
    exact ⟨fun same => noOpening (same ▸ member), fun same => noClosing (same ▸ member)⟩

theorem except_all_iff (barred : Char) (content : Text) :
    (∀ c ∈ content, (CharClass.except barred).holds c = true) ↔ barred ∉ content := by
  simp only [CharClass.holds, decide_eq_true_eq]
  constructor
  · intro all member
    exact all barred member rfl
  · intro absent c member same
    exact absent (same ▸ member)

theorem oneOrMore_allows_iff (content : Text) :
    Count.oneOrMore.Allows content.length ↔ content ≠ [] := by
  cases content <;> simp [Count.oneOrMore, Count.Allows]

-- A capture takes what its tag takes in front of the character that it knows.
theorem Tag.shape_fits_iff (tag : Tag) (content : Text) :
    tag.shape.Fits content ↔ tag.Takes tag.after content := by
  rcases tag with ⟨key, specifier, before, after, offset⟩
  rcases specifier with _ | ⟨kind, count | ⟨whole, fraction⟩⟩
  · cases after with
    | none =>
        simp only [Tag.shape, Tag.Takes, Shape.Fits, IsRun, noBrace_all_iff, oneOrMore_allows_iff]
        exact and_comm
    | some c =>
        simp only [Tag.shape, Tag.Takes, Shape.Fits, IsRun, except_all_iff, oneOrMore_allows_iff]
        exact and_comm
  · cases kind with
    | digits => rfl
    | text => simp only [Tag.shape, Tag.Takes, Shape.Fits, IsRun, noBrace_all_iff]
    | decimal => simp only [Tag.shape, Tag.Takes, Shape.Fits, IsRun, noBrace_all_iff]
  · rfl

/-- The cuts along the pattern of a template are the divisions among its parts. -/
theorem cut_iff_division {parts : List Fragment} (linked : Linked parts) {input : Text}
    {captured : List Text} :
    Cut (parts.map Fragment.piece) input captured ↔ Division parts input captured := by
  induction parts generalizing input captured with
  | nil =>
      constructor
      · intro cut
        cases cut
        exact .done
      · intro division
        cases division
        exact .done
  | cons part rest ih =>
      cases part with
      | literal content =>
          constructor
          · intro cut
            cases cut with
            | literal _ tail => exact .literal content ((ih linked).mp tail)
          · intro division
            cases division with
            | literal _ tail => exact .literal content ((ih linked).mpr tail)
      | tag tag =>
          constructor
          · intro cut
            cases cut with
            | capture fits tail =>
                refine .tag ?_ ((ih linked.2).mp tail)
                rw [← linked.1]
                exact tag.shape_fits_iff _ |>.mp fits
          · intro division
            cases division with
            | tag takes tail =>
                refine .capture ?_ ((ih linked.2).mpr tail)
                rw [tag.shape_fits_iff, linked.1]
                exact takes

theorem length_of_division {parts : List Fragment} {input : Text} {captured : List Text}
    (division : Division parts input captured) :
    captured.length = (parts.filterMap Fragment.tag?).length := by
  induction division with
  | done => rfl
  | literal content tail ih => exact ih
  | tag takes tail ih => simp [Fragment.tag?, ih]

end Stencil
