import Stencil.Text.Basic

/-!
What can be wrong with a template, found while it is cut into tokens or while
a tag is read. Offsets count bytes from the start of the template.
-/
namespace Stencil

inductive TemplateFault where
  /-- A tag is opened and never closed. -/
  | unterminated (offset : Nat)
  /-- A second tag is opened inside the tag at the offset. -/
  | nested (offset : Nat)
  /-- A tag is closed at the offset, and none is open. -/
  | unexpectedClose (offset : Nat)
  | emptyKey (offset : Nat)
  | invalidKey (key : Text) (offset : Nat)
  | emptySpecifier (key : Text)
  | invalidLength (specifier : Text)
  | zeroLength (specifier : Text)
  /-- A decimal with no digit on either side of its point. -/
  | noDigits (specifier : Text)
  deriving DecidableEq, Repr

def TemplateFault.message : TemplateFault → String
  | .unterminated offset => s!"unterminated tag starting at byte {offset}"
  | .nested offset => s!"'\x7b\x7b' inside the tag starting at byte {offset}"
  | .unexpectedClose offset => s!"unexpected '\x7d\x7d' at byte {offset} outside of a tag"
  | .emptyKey offset => s!"tag at byte {offset} has no key"
  | .invalidKey key offset => s!"invalid key '{String.ofList key}' in tag at byte {offset}"
  | .emptySpecifier key => s!"empty specifier for key '{String.ofList key}'"
  | .invalidLength specifier => s!"invalid length in specifier '{String.ofList specifier}'"
  | .zeroLength specifier => s!"zero length in specifier '{String.ofList specifier}'"
  | .noDigits specifier => s!"float specifier '{String.ofList specifier}' allows no digits"

end Stencil
