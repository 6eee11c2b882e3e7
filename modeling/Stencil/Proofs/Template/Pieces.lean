import Mathlib.Data.List.Forall2
import Mathlib.Data.List.TakeWhile
import Stencil.Proofs.Template.Dotted

/-!
What a raw key is read as. The trimmed text is cut at its dots, and each piece between
them stands for one key, blanks around it aside. A path that was read is known by its
text, which joins the pieces again and reads back as the path.
-/
namespace Stencil

theorem Text.trim_eq_nil_iff {content : Text} :
    trim content = [] ↔ ∀ c ∈ content, isBlank c = true := by
  rw [← List.dropWhile_eq_nil_iff]
  constructor
  · intro empty
    cases start : trimStart content with
    | nil => exact start
    | cons c rest =>
        -- What is left at the start is not blank, so it would be left by `trimEnd` too.
        have filled := head_trimStart content c (by simp [start])
        have blank := List.dropWhile_eq_nil_iff.mp (List.reverse_eq_nil_iff.mp empty) c
          (by simp [start])
        rw [filled] at blank
        exact absurd blank Bool.false_ne_true
  · intro none
    rw [trim, trimStart, none]
    rfl

namespace Key

/-- The key that a piece of a text stands for: the index that is written so, and a name
where no 64-bit number is. -/
inductive Stands : Text → Key → Prop
  | index (number : UInt64) : Stands (Digits.written number.toNat) (.index number)
  | name {piece : Text} (unwritten : ∀ number : UInt64, Digits.written number.toNat ≠ piece) :
      Stands piece (.name piece)

theorem ofText_unwritten {piece : Text}
    (unwritten : ∀ number : UInt64, Digits.written number.toNat ≠ piece) :
    ofText piece = .name piece := by
  have other : ¬ (Digits.value piece < UInt64.size ∧
      Digits.written (Digits.value piece) = piece) := by
    rintro ⟨fits, canonical⟩
    apply unwritten (UInt64.ofNat (Digits.value piece))
    rw [UInt64.toNat_ofNat_of_lt' fits, canonical]
  simp [ofText, other]

theorem stands_iff {piece : Text} {key : Key} : Stands piece key ↔ ofText piece = key := by
  constructor
  · rintro (number | unwritten)
    · exact ofText_digits number
    · exact ofText_unwritten unwritten
  · rintro rfl
    by_cases written : ∃ number : UInt64, Digits.written number.toNat = piece
    · obtain ⟨number, rfl⟩ := written
      rw [ofText_digits]
      exact .index number
    · rw [ofText_unwritten (not_exists.mp written)]
      exact .name (not_exists.mp written)

end Key

namespace Path

theorem forall₂_stands_iff {texts : List Text} {keys : List Key} :
    List.Forall₂ Key.Stands texts keys ↔ texts.map Key.ofText = keys := by
  have same : Key.Stands = fun piece key => Key.ofText piece = key :=
    funext₂ fun _ _ => propext Key.stands_iff
  rw [same, ← List.forall₂_eq_eq_eq, List.forall₂_map_left_iff]

/-- Some piece is blank. -/
theorem nil_mem_pieces_iff {raw : Text} :
    [] ∈ pieces raw ↔
      ∃ piece ∈ (Text.trim raw).splitOn '.', ∀ c ∈ piece, isBlank c = true := by
  simp only [pieces, List.mem_map, Text.trim_eq_nil_iff]

inductive Found (raw : Text) (offset : Nat) : Except TemplateFault Path → Prop
  | empty (blank : Text.trim raw = []) : Found raw offset (.error (.emptyKey offset))
  | invalid {piece : Text} (nonempty : Text.trim raw ≠ [])
      (member : piece ∈ (Text.trim raw).splitOn '.') (blank : ∀ c ∈ piece, isBlank c = true) :
      Found raw offset (.error (.invalidKey (Text.trim raw) offset))
  | path {path : Path} (filled : [] ∉ pieces raw)
      (stands : List.Forall₂ Key.Stands (pieces raw) path.segments) :
      Found raw offset (.ok path)

theorem ofText_of_blank_piece {raw : Text} {offset : Nat} (nonempty : Text.trim raw ≠ [])
    (blank : [] ∈ pieces raw) :
    ofText raw offset = .error (.invalidKey (Text.trim raw) offset) := by
  rw [ofText, if_neg nonempty]
  split
  next path read => exact absurd blank (segments_ofSegments?.mp read).1
  next => rfl

theorem ofText_eq_iff_found {raw : Text} {offset : Nat} {result : Except TemplateFault Path} :
    ofText raw offset = result ↔ Found raw offset result := by
  constructor
  · rintro rfl
    by_cases empty : Text.trim raw = []
    · rw [ofText, if_pos empty]
      exact .empty empty
    · by_cases blank : [] ∈ pieces raw
      · obtain ⟨piece, member, blanks⟩ := nil_mem_pieces_iff.mp blank
        rw [ofText_of_blank_piece empty blank]
        exact .invalid empty member blanks
      · obtain ⟨path, same⟩ : ∃ path : Path, path.segments = (pieces raw).map Key.ofText :=
          exists_segments (by simp [pieces])
        rw [ofText_eq_ok_iff.mpr ⟨blank, same.symm⟩]
        exact .path blank (forall₂_stands_iff.mpr same.symm)
  · intro found
    cases found with
    | empty blank => rw [ofText, if_pos blank]
    | invalid nonempty member blank =>
        exact ofText_of_blank_piece nonempty (nil_mem_pieces_iff.mpr ⟨_, member, blank⟩)
    | path filled stands => exact ofText_eq_ok_iff.mpr ⟨filled, forall₂_stands_iff.mp stands⟩

theorem texts_of_ofText {raw : Text} {offset : Nat} {path : Path}
    (read : ofText raw offset = .ok path) : path.segments.map Key.written = pieces raw := by
  rw [← (ofText_eq_ok_iff.mp read).2, List.map_map]
  calc (pieces raw).map (Key.written ∘ Key.ofText)
      = (pieces raw).map id := List.map_congr_left fun piece _ => Key.written_ofText piece
    _ = pieces raw := List.map_id _

structure Known (raw : Text) (offset : Nat) : Prop where
  found : ∀ result, ofText raw offset = result ↔ Found raw offset result
  texts : ∀ path, ofText raw offset = .ok path → path.segments.map Key.written = pieces raw
  joined : ∀ path, ofText raw offset = .ok path →
    path.written = ['.'].intercalate (path.segments.map Key.written)
  again : ∀ path, ofText raw offset = .ok path → ∀ other, ofText path.written other = .ok path
  apart : ∀ path, ofText raw offset = .ok path →
    ∀ other raw' offset', ofText raw' offset' = .ok other →
      (path = other ↔ path.written = other.written)

/-- The pieces of a raw key decide what it is read as, and the text of a path that was
read stands for that path alone. -/
theorem known_raw (raw : Text) (offset : Nat) : Known raw offset where
  found _ := ofText_eq_iff_found
  texts _ := texts_of_ofText
  joined path _ := written_eq_intercalate path
  again _ read other := ofText_written (legal_of_ofText read).1 other
  apart _ read _ _ _ otherRead :=
    ⟨congrArg written,
      (legal_of_ofText read).1.plain.eq_of_written (legal_of_ofText otherRead).1.plain⟩

-- A number with a leading zero or beyond 64 bits is a name.
example : (ofText " 007 . 18446744073709551616.18446744073709551615".toList 0).toOption =
    some (.step (.name "007".toList) (.step (.name "18446744073709551616".toList)
      (.last (.index 18446744073709551615)))) := by decide +kernel

end Path
end Stencil
