import Stencil.Text.Unprintable

/-!
One character in single quotes, so that it can be told apart from the text
around it. A quote, a backslash and the common control characters have short
escapes; other characters that would not show are given by their code point.
-/
namespace Stencil.Quoted

-- The character between the quotes. A double quote needs no escape there.
def escaped (c : Char) : Text :=
  if c = '\x00' then ['\\', '0']
  else if c = '\t' then ['\\', 't']
  else if c = '\r' then ['\\', 'r']
  else if c = '\n' then ['\\', 'n']
  else if c = '\'' then ['\\', '\'']
  else if c = '\\' then ['\\', '\\']
  else if isUnprintable c then '\\' :: 'u' :: '{' :: Nat.toDigits 16 c.toNat ++ ['}']
  else [c]

def written (c : Char) : Text := '\'' :: escaped c ++ ['\'']

end Stencil.Quoted
