import Stencil.Proofs.Reader.Matching
import Stencil.Proofs.Template.Rewriting

/-!
Readers for a template and for its canonical text. The checks and the reading look
at the tags and the pattern, never at where the tags stand, so the canonical text
is refused for the same reason or reads the same from every input.
-/
namespace Stencil

theorem Template.keys_congr {template other : Template}
    (same : template.parts.map Fragment.unplaced = other.parts.map Fragment.unplaced) :
    template.tags.map Tag.key = other.tags.map Tag.key := by
  have keys (template : Template) :
      template.tags.map Tag.key = (template.tags.map Tag.capture).map Capture.key := by
    rw [List.map_map]
    rfl
  rw [keys, keys, captures_congr same]

theorem Template.check_congr {template other : Template}
    (same : template.parts.map Fragment.unplaced = other.parts.map Fragment.unplaced)
    (refusal? : Pattern → Option Refusal) : template.check refusal? = other.check refusal? := by
  have untagged : template.tags = [] ↔ other.tags = [] := by
    rw [← List.map_eq_nil_iff, keys_congr same, List.map_eq_nil_iff]
  rw [check, check, keys_congr same, pattern_congr same]
  simp only [untagged]

namespace Reader
section
variable {refusal? : Pattern → Option Refusal} {source : Text}

theorem compile_of_read {template : Template} (read : Template.ofText source = .ok template) :
    compile refusal? source = (template.check refusal?).map fun _ => ⟨source, template⟩ := by
  rw [compile, read]
  change (template.check refusal? >>= fun _ => .ok (Reader.mk source template)) = _
  cases template.check refusal? <;> rfl

theorem read_congr {reader other : Reader}
    (same : reader.template.parts.map Fragment.unplaced =
      other.template.parts.map Fragment.unplaced) (input : Text) :
    reader.read input = other.read input := by
  have entries (reader : Reader) (captured : List Text) : reader.entriesOf captured =
      ((reader.template.tags.map Tag.key).zip captured).map
        fun entry => (entry.1, Scalar.ofText entry.2) := by
    rw [entriesOf, List.zip_map_left, List.map_map]
    rfl
  have tables : reader.tableOf = other.tableOf := by
    funext captured
    rw [tableOf, tableOf, entries, entries, Template.keys_congr same]
  have patterns : reader.pattern = other.pattern := Template.pattern_congr same
  rw [read, read, patterns, tables]

/-- The canonical text of a template reads as the same template, apart from where its
tags stand, and is the canonical text of that. It gives a reader exactly if the template
does, with the same pattern and groups, and that reader reads the same from every input. -/
theorem compile_canonical {template : Template} (read : Template.ofText source = .ok template) :
    ∃ again, Template.ofText template.canonical = .ok again ∧
      again.parts.map Fragment.unplaced = template.parts.map Fragment.unplaced ∧
      again.canonical = template.canonical ∧
      ∀ refusal?,
        (∀ fault, compile refusal? template.canonical = .error fault ↔
          compile refusal? source = .error fault) ∧
        ((∃ other, compile refusal? template.canonical = .ok other) ↔
          ∃ reader, compile refusal? source = .ok reader) ∧
        ∀ reader other, compile refusal? source = .ok reader →
          compile refusal? template.canonical = .ok other →
            other.pattern.written = reader.pattern.written ∧
            other.captures = reader.captures ∧
            ∀ input, other.read input = reader.read input := by
  rcases Template.ofText_canonical read with ⟨again, reread, same⟩
  refine ⟨again, reread, same, Template.canonical_congr same, fun refusal? => ?_⟩
  rw [compile_of_read read, compile_of_read reread, Template.check_congr same]
  refine ⟨fun fault => ?_, ⟨?_, ?_⟩, ?_⟩
  · rw [map_eq_error_iff, map_eq_error_iff]
  · rintro ⟨other, compiled⟩
    rcases map_eq_ok_iff.mp compiled with ⟨_, passed, -⟩
    exact ⟨_, map_eq_ok_iff.mpr ⟨_, passed, rfl⟩⟩
  · rintro ⟨reader, compiled⟩
    rcases map_eq_ok_iff.mp compiled with ⟨_, passed, -⟩
    exact ⟨_, map_eq_ok_iff.mpr ⟨_, passed, rfl⟩⟩
  · intro reader other compiled recompiled
    rcases map_eq_ok_iff.mp compiled with ⟨_, -, rfl⟩
    rcases map_eq_ok_iff.mp recompiled with ⟨_, -, rfl⟩
    exact ⟨congrArg Pattern.written (Template.pattern_congr same), Template.captures_congr same,
      read_congr same⟩

/-- A template that is not canonical: blanks around a key and its segments, a leading zero
in a length, a kind that is left out, and a key with a brace. -/
def spacedSource : Text := "{{a . 0:007d}}: ".toList ++ '{' :: "{{b :5}}".toList

def spacedTemplate : Template := ⟨[
  .tag ⟨.step (.name ['a']) (.last (.index 0)), some (.digits (.exactly 7 (by decide))), none,
    some ':', 0⟩,
  .literal [':', ' '],
  .tag ⟨.last (.name ['{', 'b']), some (.text (.exactly 5 (by decide))), some ' ', none, 16⟩]⟩

theorem spaced_canonical :
    spacedTemplate.canonical =
      "{{ a.0: 7d }}: ".toList ++ ['{', '{', ' ', '{'] ++ "b: 5s ".toList ++ ['}', '}'] ∧
    (∃ reader, compile Pattern.refusal? spacedSource = .ok reader) ∧
    ∃ other, compile Pattern.refusal? spacedTemplate.canonical = .ok other := by
  have read : Template.ofText spacedSource = .ok spacedTemplate := by
    apply toOption_eq_some_iff.mp
    decide +kernel
  have compiled : compile Pattern.refusal? spacedSource = .ok ⟨spacedSource, spacedTemplate⟩ := by
    apply toOption_eq_some_iff.mp
    decide +kernel
  rcases compile_canonical read with ⟨_, _, _, _, whole⟩
  exact ⟨by decide +kernel, ⟨_, compiled⟩, (whole Pattern.refusal?).2.1.mpr ⟨_, compiled⟩⟩

end
end Reader
end Stencil
