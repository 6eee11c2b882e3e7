import Stencil.Template.Fault
import Stencil.Template.Key
import Stencil.Text.Blank

/-!
A path is one key or more: the last one names a value, those before it the
tables around the value. Blanks around the whole text and around each segment
do not count, and no segment may be blank.
-/
namespace Stencil

inductive Path where
  | last (key : Key)
  | step (key : Key) (rest : Path)
  deriving DecidableEq, Repr

namespace Path

def segments : Path → List Key
  | .last key => [key]
  | .step key rest => key :: rest.segments

def lastKey : Path → Key
  | .last key => key
  | .step _ rest => rest.lastKey

def depth : Path → Nat
  | .last _ => 0
  | .step _ rest => rest.depth + 1

def written : Path → Text
  | .last key => key.written
  | .step key rest => key.written ++ '.' :: rest.written

def ofSegments? : List Text → Option Path
  | [] => none
  | [segment] => if segment = [] then none else some (.last (Key.ofText segment))
  | segment :: rest =>
      if segment = [] then none else (ofSegments? rest).map (.step (Key.ofText segment))

def ofText (raw : Text) (offset : Nat) : Except TemplateFault Path :=
  let key := Text.trim raw
  if key = [] then .error (.emptyKey offset)
  else match ofSegments? ((key.splitOn '.').map Text.trim) with
    | some path => .ok path
    | none => .error (.invalidKey key offset)

/-- Whether the first path leads to a table on the way of the second. -/
def isParentOf : Path → Path → Bool
  | .last key, .step other _ => key = other
  | .step key rest, .step other others => key = other && rest.isParentOf others
  | _, .last _ => false

/-- A path is a parent of another exactly when its segments are a proper
prefix of the other's. -/
theorem isParentOf_iff (path other : Path) :
    path.isParentOf other = true ↔
      path.segments <+: other.segments ∧ path.segments ≠ other.segments := by
  induction path generalizing other with
  | last key =>
      cases other with
      | last second => simp [isParentOf, segments, List.prefix_iff_eq_take]
      | step second rest =>
          cases rest <;> simp [isParentOf, segments]
  | step key rest ih =>
      cases other with
      | last second =>
          cases rest <;> simp [isParentOf, segments]
      | step second others =>
          by_cases same : key = second
          · subst same
            simp [isParentOf, segments, ih]
          · simp [isParentOf, segments, same]

theorem isParentOf_irrefl (path : Path) : ¬ path.isParentOf path = true := by
  rw [isParentOf_iff]
  intro parent
  exact parent.2 rfl

theorem isParentOf_trans {first second third : Path} (front : first.isParentOf second = true)
    (back : second.isParentOf third = true) : first.isParentOf third = true := by
  rw [isParentOf_iff] at front back ⊢
  refine ⟨front.1.trans back.1, fun same => ?_⟩
  have shorter := front.1.length_le
  rw [same] at shorter
  exact back.2 (back.1.eq_of_length_le shorter)

theorem isParentOf_asymm {path other : Path} (parent : path.isParentOf other = true) :
    ¬ other.isParentOf path = true :=
  fun back => isParentOf_irrefl path (isParentOf_trans parent back)

end Path
end Stencil
