import Stencil.Proofs.Steps
import Stencil.Proofs.Template.Pair

/-!
How a template is cut, as a set of rules: a slot begins at the first pair of
opening braces and ends at the first pair of closing braces behind it. Some rule
applies to every text, and what the rules say is what the scan gives. Results
about the scan go by induction on the rules and never look at the scan itself.
-/
namespace Stencil
namespace Token

/-- What the text that starts `offset` bytes into a template is cut into, or the
fault at which the cutting stops. -/
inductive Scans : Nat → Text → Except TemplateFault (List Token) → Prop
  | text {offset : Nat} {content : Text} (unopened : ¬ HasPair '{' content)
      (unclosed : ¬ HasPair '}' content) : Scans offset content (.ok (literals content))
  | stray {offset : Nat} {front : Text} (behind : Text) (unopened : ¬ HasPair '{' front)
      (first : ¬ HasPair '}' (front ++ ['}'])) :
      Scans offset (front ++ '}' :: '}' :: behind)
        (.error (.unexpectedClose (offset + Text.byteSize front)))
  | unterminated {offset : Nat} {before inside : Text}
      (first : ¬ HasPair '{' (before ++ ['{'])) (unclosed : ¬ HasPair '}' before)
      (endless : ¬ HasPair '}' inside) :
      Scans offset (before ++ '{' :: '{' :: inside)
        (.error (.unterminated (offset + Text.byteSize before)))
  | nested {offset : Nat} {before body : Text} (rest : Text)
      (first : ¬ HasPair '{' (before ++ ['{'])) (unclosed : ¬ HasPair '}' before)
      (closing : ¬ HasPair '}' (body ++ ['}'])) (inner : HasPair '{' body) :
      Scans offset (before ++ '{' :: '{' :: (body ++ '}' :: '}' :: rest))
        (.error (.nested (offset + Text.byteSize before)))
  | slot {offset : Nat} {before body rest : Text} {result : Except TemplateFault (List Token)}
      (first : ¬ HasPair '{' (before ++ ['{'])) (unclosed : ¬ HasPair '}' before)
      (closing : ¬ HasPair '}' (body ++ ['}'])) (flat : ¬ HasPair '{' body)
      (tail : Scans (offset + Text.byteSize before + 2 + Text.byteSize body + 2) rest result) :
      Scans offset (before ++ '{' :: '{' :: (body ++ '}' :: '}' :: rest))
        (result.map fun following =>
          literals before ++ .slot ⟨body, offset + Text.byteSize before, none, none⟩ :: following)

/-- Some rule applies to every text. -/
theorem exists_scans (offset : Nat) (content : Text) : ∃ result, Scans offset content result := by
  induction size : content.length using Nat.strongRecOn generalizing offset content with
  | _ _ ih =>
  subst size
  cases opening : cutPair '{' content with
  | none =>
      have unopened := cutPair_eq_none_iff.mp opening
      cases closing : cutPair '}' content with
      | none => exact ⟨_, .text unopened (cutPair_eq_none_iff.mp closing)⟩
      | some cut =>
          rcases cutPair_eq_some_iff.mp closing with ⟨rfl, first⟩
          have front : cut.1 <:+: cut.1 ++ '}' :: '}' :: cut.2 := (List.prefix_append _ _).isInfix
          exact ⟨_, .stray cut.2 (fun pair => unopened (pair.mono front)) first⟩
  | some cut =>
      rcases cut with ⟨before, inside⟩
      rcases cutPair_eq_some_iff.mp opening with ⟨rfl, first⟩
      cases closing : cutPair '}' before with
      | some cut =>
          rcases cutPair_eq_some_iff.mp closing with ⟨rfl, firstClosing⟩
          have front : cut.1 <:+: cut.1 ++ '}' :: '}' :: cut.2 ++ ['{'] := by
            rw [List.append_assoc]
            exact (List.prefix_append _ _).isInfix
          rw [List.append_assoc]
          exact ⟨_, .stray _ (fun pair => first (pair.mono front)) firstClosing⟩
      | none =>
          have unclosed := cutPair_eq_none_iff.mp closing
          cases ending : cutPair '}' inside with
          | none => exact ⟨_, .unterminated first unclosed (cutPair_eq_none_iff.mp ending)⟩
          | some cut =>
              rcases cut with ⟨body, rest⟩
              rcases cutPair_eq_some_iff.mp ending with ⟨rfl, closes⟩
              by_cases inner : HasPair '{' body
              · exact ⟨_, .nested rest first unclosed closes inner⟩
              · have shorter : rest.length <
                    (before ++ '{' :: '{' :: (body ++ '}' :: '}' :: rest)).length := by
                  simp only [List.length_append, List.length_cons]
                  omega
                rcases ih _ shorter _ rest rfl with ⟨result, tail⟩
                exact ⟨_, .slot first unclosed closes inner tail⟩

theorem checkLiteral_unclosed {content : Text} (unclosed : ¬ HasPair '}' content) (offset : Nat) :
    checkLiteral offset content = .ok () := by
  rw [checkLiteral, cutPair_eq_none_iff.mpr unclosed]

theorem checkLiteral_stray {front : Text} (first : ¬ HasPair '}' (front ++ ['}'])) (offset : Nat)
    (behind : Text) :
    checkLiteral offset (front ++ '}' :: '}' :: behind) =
      .error (.unexpectedClose (offset + Text.byteSize front)) := by
  rw [checkLiteral, cutPair_append first]

-- Without an opening pair in front, the stray pair is found in the text before the next slot.
theorem scan_stray {front : Text} (unopened : ¬ HasPair '{' front)
    (first : ¬ HasPair '}' (front ++ ['}'])) (offset : Nat) (behind : Text) :
    scan offset (front ++ '}' :: '}' :: behind) =
      .error (.unexpectedClose (offset + Text.byteSize front)) := by
  rw [scan]
  split
  · rw [checkLiteral_stray first]
    rfl
  next before inside opening =>
  rcases pairs_apart (by decide) (cutPair_eq_some opening) with ⟨between, rfl⟩ | ⟨between, rfl⟩
  · rw [checkLiteral_stray first]
    rfl
  · exact absurd (hasPair_iff.mpr ⟨_, _, rfl⟩) unopened

-- With a text in front that holds no closing pair, all depends on how the slot goes on.
theorem scan_opening {before : Text} (first : ¬ HasPair '{' (before ++ ['{']))
    (unclosed : ¬ HasPair '}' before) (offset : Nat) (inside : Text) :
    scan offset (before ++ '{' :: '{' :: inside) =
      match cutPair '}' inside with
      | none => .error (.unterminated (offset + Text.byteSize before))
      | some (body, rest) =>
          if (cutPair '{' body).isSome then .error (.nested (offset + Text.byteSize before))
          else
            (scan (offset + Text.byteSize before + 2 + Text.byteSize body + 2) rest).map
              fun following =>
                literals before ++
                  .slot ⟨body, offset + Text.byteSize before, none, none⟩ :: following := by
  have opening := cutPair_append first inside
  rw [scan]
  split
  next none => simp [opening] at none
  next found =>
  rw [opening] at found
  obtain ⟨rfl, rfl⟩ := by simpa using found
  rw [checkLiteral_unclosed unclosed]
  simp only [bind, Except.bind]
  split
  next closing => rw [closing]
  next closing =>
  rw [closing]
  split
  next inner => simp [inner]
  next inner => simp [inner, Except.map, pure, Except.pure]

/-- The rules are those by which a template is cut. -/
theorem scan_of_scans {offset : Nat} {content : Text} {result : Except TemplateFault (List Token)}
    (scans : Scans offset content result) : scan offset content = result := by
  induction scans with
  | @text offset content unopened unclosed =>
      rw [scan]
      split
      · rw [checkLiteral_unclosed unclosed]
        rfl
      next opening => simp [cutPair_eq_none_iff.mpr unopened] at opening
  | stray behind unopened first => exact scan_stray unopened first _ behind
  | unterminated first unclosed endless =>
      rw [scan_opening first unclosed, cutPair_eq_none_iff.mpr endless]
  | nested rest first unclosed closing inner =>
      rw [scan_opening first unclosed, cutPair_append closing]
      simp [cutPair_isSome_iff, inner]
  | slot first unclosed closing flat tail ih =>
      rw [scan_opening first unclosed, cutPair_append closing]
      simp [cutPair_isSome_iff, flat, ih]

theorem scans_scan (offset : Nat) (content : Text) :
    Scans offset content (scan offset content) := by
  rcases exists_scans offset content with ⟨result, scans⟩
  rwa [scan_of_scans scans]

end Token
end Stencil
