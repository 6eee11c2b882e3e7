import Stencil.Template.Path
import Stencil.Template.Specifier
import Stencil.Template.Token

/-!
A template is literal text with tags in it. A tag is a key path, with a
specifier after a colon if there is one.
-/
namespace Stencil

structure Tag where
  key : Path
  specifier : Option Specifier
  before : Option Char
  after : Option Char
  offset : Nat
  deriving DecidableEq, Repr

def splitColon (body : Text) : Text × Option Text :=
  match body.dropWhile (· ≠ ':') with
  | [] => (body, none)
  | _ :: specifier => (body.takeWhile (· ≠ ':'), some specifier)

-- Reads a slot. The key is read first, so its fault comes first.
def Tag.ofSlot (slot : Slot) : Except TemplateFault Tag := do
  let (key, specifier) := splitColon (Text.trim slot.body)
  let path ← Path.ofText key slot.offset
  match specifier with
  | none => return ⟨path, none, slot.before, slot.after, slot.offset⟩
  | some raw =>
      let specifier ← Specifier.ofText raw (Text.trim key)
      return ⟨path, some specifier, slot.before, slot.after, slot.offset⟩

def Path.label (key : Path) : Option Specifier → Text
  | none => key.written
  | some specifier => key.written ++ ": ".toList ++ specifier.written

inductive Fragment where
  | literal (content : Text)
  | tag (content : Tag)
  deriving DecidableEq, Repr

def Fragment.ofToken : Token → Except TemplateFault Fragment
  | .literal content => .ok (.literal content)
  | .slot hole => (Tag.ofSlot hole).map .tag

def Fragment.tag? : Fragment → Option Tag
  | .literal _ => none
  | .tag content => some content

structure Template where
  parts : List Fragment
  deriving DecidableEq, Repr

namespace Template

/-- Reads a template. A fault in the cutting comes before any fault in a tag,
and the tags are read from left to right. -/
def ofText (source : Text) : Except TemplateFault Template := do
  let tokens ← Token.ofTemplate source
  return ⟨← tokens.mapM Fragment.ofToken⟩

def tags (template : Template) : List Tag := template.parts.filterMap Fragment.tag?

end Template
end Stencil
