import Stencil.Proofs.Text.Trim
import Stencil.Template.Path

/-!
Paths and their text. Reading a path gives legal keys, each of them a stretch of
what was read; the text of a path with legal keys reads back as that path.
-/
namespace Stencil

/-- The pieces of a text between the marks hold no mark and are stretches of it;
the first piece is where the text starts. -/
theorem splitOn_pieces (mark : Char) (content : Text) :
    (∃ first others, content.splitOn mark = first :: others ∧ first <+: content) ∧
      ∀ piece ∈ content.splitOn mark, mark ∉ piece ∧ piece <:+: content := by
  induction content with
  | nil => simp
  | cons c rest ih =>
      rcases ih with ⟨⟨first, others, split, start⟩, pieces⟩
      rw [split] at pieces
      have within : ∀ piece ∈ first :: others, mark ∉ piece ∧ piece <:+: c :: rest :=
        fun piece member => ⟨(pieces piece member).1,
          (pieces piece member).2.trans (List.suffix_cons c rest).isInfix⟩
      rw [List.splitOn_cons_eq_if_modifyHead, split]
      by_cases same : c = mark
      · rw [if_pos (by simpa using same)]
        refine ⟨⟨[], _, rfl, List.nil_prefix⟩, fun piece member => ?_⟩
        rcases List.mem_cons.mp member with rfl | member
        · exact ⟨by simp, List.nil_infix⟩
        · exact within piece member
      -- The piece that the text starts with grows by one character.
      · rw [if_neg (by simpa using same)]
        have grown : c :: first <+: c :: rest := List.cons_prefix_cons.mpr ⟨rfl, start⟩
        refine ⟨⟨c :: first, others, rfl, grown⟩, fun piece member => ?_⟩
        rcases List.mem_cons.mp member with rfl | member
        · refine ⟨?_, grown.isInfix⟩
          simpa [Ne.symm same] using (pieces first (by simp)).1
        · exact within piece (List.mem_cons_of_mem first member)

namespace Key

theorem written_ofText (segment : Text) : (ofText segment).written = segment := by
  by_cases digits : Digits.isDigits segment = true
  · by_cases canonical : Digits.value segment < UInt64.size ∧
        Digits.written (Digits.value segment) = segment
    · have number : (UInt64.ofNat (Digits.value segment)).toNat = Digits.value segment :=
        UInt64.toNat_ofNat_of_lt' canonical.1
      simp [ofText, digits, canonical, written, number]
    · simp [ofText, digits, canonical, written]
  · simp [ofText, digits, written]

theorem ofText_digits (number : UInt64) :
    ofText (Digits.written number.toNat) = .index number := by
  have fits : number.toNat < UInt64.size := number.toNat_lt
  simp [ofText, Digits.isDigits_written, fits]

/-- A key whose text can stand between two dots and reads back as the key. -/
structure Legal (key : Key) : Prop where
  nonempty : key.written ≠ []
  trimmed : Text.Trimmed key.written
  undotted : '.' ∉ key.written
  read : ofText key.written = key

/-- A key that a lookup can ask for. Its text reads back as the key and holds no dot, but
it may be empty or have blanks around it, as no key of a tag does. -/
structure Plain (key : Key) : Prop where
  undotted : '.' ∉ key.written
  read : ofText key.written = key

theorem Legal.plain {key : Key} (legal : key.Legal) : key.Plain := ⟨legal.undotted, legal.read⟩

theorem legal_ofText {segment : Text} (nonempty : segment ≠ []) (trimmed : Text.Trimmed segment)
    (undotted : '.' ∉ segment) : (ofText segment).Legal := by
  constructor <;> rw [written_ofText] <;> assumption

end Key

namespace Path

def Legal (path : Path) : Prop := ∀ key ∈ path.segments, key.Legal

def Plain (path : Path) : Prop := ∀ key ∈ path.segments, key.Plain

theorem Legal.plain {path : Path} (legal : path.Legal) : path.Plain :=
  fun key member => (legal key member).plain

theorem segments_injective {path other : Path} (same : path.segments = other.segments) :
    path = other := by
  induction path generalizing other with
  | last key =>
      cases other with
      | last second => exact congrArg Path.last (List.cons.inj same).1
      | step second others => cases others <;> simp [segments] at same
  | step key rest ih =>
      cases other with
      | last second => cases rest <;> simp [segments] at same
      | step second others =>
          obtain ⟨rfl, further⟩ := List.cons.inj same
          exact congrArg (Path.step key) (ih further)

theorem exists_segments {keys : List Key} (nonempty : keys ≠ []) :
    ∃ path : Path, path.segments = keys := by
  induction keys with
  | nil => exact absurd rfl nonempty
  | cons key rest ih =>
      by_cases last : rest = []
      · exact ⟨.last key, by rw [segments, last]⟩
      · obtain ⟨path, same⟩ := ih last
        exact ⟨.step key path, by rw [segments, same]⟩

theorem segments_ofSegments? {texts : List Text} {path : Path} :
    ofSegments? texts = some path ↔ [] ∉ texts ∧ texts.map Key.ofText = path.segments := by
  fun_induction ofSegments? texts generalizing path with
  | case1 =>
      cases path <;> simp [segments]
  | case2 => simp
  | case3 segment nonempty =>
      cases path with
      | last key => simp [segments, Ne.symm nonempty]
      | step key rest => cases rest <;> simp [segments]
  | case4 => simp
  | case5 segment rest more nonempty ih =>
      cases path with
      | last key => simpa [segments] using fun _ _ _ => more
      | step key others =>
          simp only [Option.map_eq_some_iff, step.injEq, segments, List.map_cons, List.cons.injEq,
            List.mem_cons, not_or, Ne.symm nonempty, not_false_eq_true, true_and]
          constructor
          · rintro ⟨_, read, rfl, rfl⟩
            exact ⟨(ih.mp read).1, rfl, (ih.mp read).2⟩
          · rintro ⟨filled, rfl, same⟩
            exact ⟨others, ih.mpr ⟨filled, same⟩, rfl, rfl⟩

def pieces (raw : Text) : List Text := ((Text.trim raw).splitOn '.').map Text.trim

theorem ofText_eq_ok_iff {raw : Text} {offset : Nat} {path : Path} :
    ofText raw offset = .ok path ↔
      [] ∉ pieces raw ∧ (pieces raw).map Key.ofText = path.segments := by
  rw [← segments_ofSegments?, ofText]
  by_cases empty : Text.trim raw = []
  · simp [empty, pieces, ofSegments?]
  · simp only [empty, ↓reduceIte]
    rw [pieces]
    cases ofSegments? (((Text.trim raw).splitOn '.').map Text.trim) <;> simp

/-- The keys of a path that was read are legal, and their texts stood in what was read. -/
theorem legal_of_ofText {raw : Text} {offset : Nat} {path : Path}
    (read : ofText raw offset = .ok path) :
    path.Legal ∧ ∀ key ∈ path.segments, key.written <:+: raw := by
  rcases ofText_eq_ok_iff.mp read with ⟨filled, same⟩
  have origin (key : Key) (member : key ∈ path.segments) :
      ∃ piece, piece ∈ pieces raw ∧ '.' ∉ piece ∧ Text.Trimmed piece ∧ piece <:+: raw ∧
        Key.ofText piece = key := by
    rw [← same] at member
    rcases List.mem_map.mp member with ⟨_, among, rfl⟩
    rcases List.mem_map.mp among with ⟨part, partMember, rfl⟩
    rcases (splitOn_pieces '.' _).2 part partMember with ⟨undotted, within⟩
    have stretch := Text.trim_infix part
    exact ⟨Text.trim part, among, fun dot => undotted (stretch.subset dot),
      Text.trimmed_trim part, stretch.trans (within.trans (Text.trim_infix raw)), rfl⟩
  constructor
  · intro key member
    rcases origin key member with ⟨piece, among, undotted, trimmed, -, rfl⟩
    exact Key.legal_ofText (fun empty => filled (empty ▸ among)) trimmed undotted
  · intro key member
    rcases origin key member with ⟨piece, -, -, -, within, rfl⟩
    rwa [Key.written_ofText]

theorem splitOn_written {path : Path} (plain : path.Plain) :
    path.written.splitOn '.' = path.segments.map Key.written := by
  induction path with
  | last key =>
      exact List.splitOn_eq_singleton (plain key (by simp [segments])).undotted
  | step key rest ih =>
      have undotted := (plain key (by simp [segments])).undotted
      have others : rest.Plain := fun other member => plain other (by simp [segments, member])
      rw [written, List.splitOn_append_cons_self_of_not_mem undotted, ih others]
      rfl

theorem trimmed_written {path : Path} (legal : path.Legal) :
    path.written ≠ [] ∧ Text.Trimmed path.written := by
  induction path with
  | last key =>
      have here := legal key (by simp [segments])
      exact ⟨here.nonempty, here.trimmed⟩
  | step key rest ih =>
      have here := legal key (by simp [segments])
      rcases ih fun other member => legal other (by simp [segments, member]) with
        ⟨nonempty, trimmed⟩
      refine ⟨by simp [written], ?_⟩
      simpa [written] using here.trimmed.enclose trimmed here.nonempty nonempty ['.']

/-- The text of a path with legal keys reads back as the path. -/
theorem ofText_written {path : Path} (legal : path.Legal) (offset : Nat) :
    ofText path.written offset = .ok path := by
  have texts : pieces path.written = path.segments.map Key.written := by
    rw [pieces, Text.trim_of_trimmed (trimmed_written legal).2, splitOn_written legal.plain,
      List.map_map]
    apply List.map_congr_left
    intro key member
    exact Text.trim_of_trimmed (legal key member).trimmed
  rw [ofText_eq_ok_iff, texts]
  constructor
  · intro empty
    rcases List.mem_map.mp empty with ⟨key, member, same⟩
    exact (legal key member).nonempty same
  · have same : path.segments.map (Key.ofText ∘ Key.written) = path.segments.map id :=
      List.map_congr_left fun key member => (legal key member).read
    rw [List.map_map, same, List.map_id]

/-- A character of the text of a path is a dot or stands in one of its keys. -/
theorem mem_written {path : Path} {c : Char} (member : c ∈ path.written) :
    c = '.' ∨ ∃ key ∈ path.segments, c ∈ key.written := by
  induction path with
  | last key => exact Or.inr ⟨key, by simp [segments], member⟩
  | step key rest ih =>
      rcases List.mem_append.mp member with here | behind
      · exact Or.inr ⟨key, by simp [segments], here⟩
      · rcases List.mem_cons.mp behind with dot | further
        · exact Or.inl dot
        · rcases ih further with dot | ⟨other, among, found⟩
          · exact Or.inl dot
          · exact Or.inr ⟨other, by simp [segments, among], found⟩

end Path
end Stencil
