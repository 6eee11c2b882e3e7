import Stencil.Proofs.Expression.Outline
import Stencil.Proofs.Reader.Matching
import Stencil.Proofs.Template.Rewriting

/-!
The text of a reader's pattern shows the template that it was made from: its outline
has one group for each tag, in order, and between the groups the literals. What a
literal holds is never taken for a group, so the values of a match cannot move from
one tag to another.
-/
namespace Stencil

def Fragment.stretch : Fragment → Stretch
  | .literal content => .literal content
  | .tag content => .group content.capture.pattern

theorem stretch_piece (parts : List Fragment) :
    (parts.map Fragment.piece).map Piece.stretch = parts.map Fragment.stretch := by
  rw [List.map_map]
  apply List.map_congr_left
  rintro (_ | _) _ <;> rfl

-- A literal ends where the next slot begins, so the pattern's literals stay apart as well.
theorem spaced_of_canonical {parts : List Fragment}
    (canonical : Token.Canonical (parts.map Fragment.token)) :
    Pattern.Spaced (parts.map Fragment.piece) := by
  induction parts with
  | nil => trivial
  | cons part rest ih =>
      rcases canonical with ⟨proper, precedes, canonical⟩
      cases part with
      | tag tag => exact ih canonical
      | literal content =>
          refine ⟨proper.1, fun between touching => ?_, ih canonical⟩
          rcases rest with _ | ⟨other | tag, rest⟩
          · simp at touching
          · exact precedes
          · simp [Fragment.piece] at touching

theorem groups_of_parts (parts : List Fragment) :
    (parts.map Fragment.stretch).filterMap Stretch.group? =
      ((parts.filterMap Fragment.tag?).map Tag.capture).map Capture.pattern := by
  induction parts with
  | nil => rfl
  | cons part rest ih =>
      cases part with
      | literal content => exact ih
      | tag tag => exact congrArg (tag.capture.pattern :: ·) ih

namespace Reader
section
variable {refusal? : Pattern → Option Refusal} {source : Text} {reader : Reader}

theorem outline_of_checked (checked : reader.Checked source) :
    Outline.ofText? (reader.pattern.flatMap Piece.written) =
      some (reader.template.parts.map Fragment.stretch) := by
  rw [← stretch_piece]
  exact Outline.ofText?_written (spaced_of_canonical (Template.canonical_parts checked.read))

/-- Between its start and its end the pattern's text has the outline of the template: its
groups are the captures, one for each tag, and outside of them stand the literals. So
the text tells the literals and the groups of the template it was made from. -/
theorem outline_of_compile (compiled : compile refusal? source = .ok reader) :
    (∃ body, reader.pattern.written = "(?s)^".toList ++ body ++ ['$'] ∧
      Outline.ofText? body = some (reader.template.parts.map Fragment.stretch)) ∧
    (reader.template.parts.map Fragment.stretch).filterMap Stretch.group? =
      reader.captures.map Capture.pattern ∧
    (reader.captures.map fun capture => (capture.key, capture.specifier)) =
      (reader.tags.map fun tag => (tag.key, tag.specifier)) ∧
    ∀ others text other, compile others text = .ok other →
      other.pattern.written = reader.pattern.written →
        other.template.parts.map Fragment.stretch =
          reader.template.parts.map Fragment.stretch := by
  have outline := outline_of_checked (checked_of_compile compiled)
  refine ⟨⟨_, rfl, outline⟩, groups_of_parts _, ?_, ?_⟩
  · rw [captures, List.map_map]
    rfl
  · intro others text other otherCompiled same
    have body : other.pattern.flatMap Piece.written = reader.pattern.flatMap Piece.written :=
      List.append_cancel_left (List.append_cancel_right same)
    have otherOutline := outline_of_checked (checked_of_compile otherCompiled)
    rw [body, outline] at otherOutline
    exact (Option.some.inj otherOutline).symm

/-- A template whose literals hold what would open a group or a class. -/
def bracketedSource : Text := "(^\\){{x: d}})[{{y}}]".toList

def bracketedSample : Reader where
  source := bracketedSource
  template := ⟨[
    .literal "(^\\)".toList,
    .tag ⟨.last (.name ['x']), some (.digits .oneOrMore), some ')', some ')', 4⟩,
    .literal [')', '['],
    .tag ⟨.last (.name ['y']), none, some '[', some ']', 14⟩,
    .literal [']']]⟩

theorem bracketed_outline :
    compile Pattern.refusal? bracketedSource = .ok bracketedSample ∧
    ∃ body, bracketedSample.pattern.written = "(?s)^".toList ++ body ++ ['$'] ∧
      Outline.ofText? body = some [.literal "(^\\)".toList, .group "[0-9]+".toList,
        .literal [')', '['], .group "[^\\]]+".toList, .literal [']']] := by
  have compiled : compile Pattern.refusal? bracketedSource = .ok bracketedSample := by
    apply toOption_eq_some_iff.mp
    decide +kernel
  exact ⟨compiled, (outline_of_compile compiled).1⟩

end
end Reader
end Stencil
