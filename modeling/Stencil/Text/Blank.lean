import Stencil.Text.Basic

/-!
Blank characters are those with the Unicode property `White_Space`. Keys,
specifiers and whole tag bodies are read without the blanks around them.
-/
namespace Stencil

def blankRanges : List (Nat × Nat) :=
  [(0x09, 0x0D), (0x20, 0x20), (0x85, 0x85), (0xA0, 0xA0), (0x1680, 0x1680),
   (0x2000, 0x200A), (0x2028, 0x2029), (0x202F, 0x202F), (0x205F, 0x205F),
   (0x3000, 0x3000)]

def isBlank (c : Char) : Bool :=
  blankRanges.any fun range => range.1 ≤ c.toNat && c.toNat ≤ range.2

namespace Text

def trimStart (content : Text) : Text := content.dropWhile isBlank

def trimEnd (content : Text) : Text := (content.reverse.dropWhile isBlank).reverse

def trim (content : Text) : Text := trimEnd (trimStart content)

end Text

end Stencil
