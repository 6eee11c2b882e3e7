import Stencil.Template.Path

/-!
No key may name both a value and a table around other values. Two tags may
share a path; the later one then gives the value.
-/
namespace Stencil

def Path.conflicts (path other : Path) : Bool :=
  path.isParentOf other || other.isParentOf path

/-- The parent in the first conflict, by the place of the first path and then
of the second. -/
def firstConflict? : List Path → Option Path
  | [] => none
  | path :: rest =>
      match rest.find? path.conflicts with
      | some other => some (if path.isParentOf other then path else other)
      | none => firstConflict? rest

end Stencil
