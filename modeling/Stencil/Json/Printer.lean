import Stencil.Json.Basic

/-!
JSON as text, either on one line without blanks or spread over lines with two
blanks for each level. Strings escape quotes, backslashes and characters below
the space; everything else stands as it is, so a document on one line holds no
line break.
-/
namespace Stencil

inductive JsonForm where
  | compact
  | spread
  deriving DecidableEq, Repr

namespace JsonForm

def lineBreak (form : JsonForm) (level : Nat) : Text :=
  match form with
  | .compact => []
  | .spread => '\n' :: List.replicate (2 * level) ' '

def colon : JsonForm → Text
  | .compact => [':']
  | .spread => [':', ' ']

end JsonForm

namespace Json

def escapeChar (c : Char) : Text :=
  if c = '"' then ['\\', '"']
  else if c = '\\' then ['\\', '\\']
  else if c = '\x08' then ['\\', 'b']
  else if c = '\x0C' then ['\\', 'f']
  else if c = '\n' then ['\\', 'n']
  else if c = '\r' then ['\\', 'r']
  else if c = '\t' then ['\\', 't']
  else if c < ' ' then
    ['\\', 'u', '0', '0', Nat.digitChar (c.toNat / 16), Nat.digitChar (c.toNat % 16)]
  else [c]

def quoted (content : Text) : Text := '"' :: content.flatMap escapeChar ++ ['"']

/-- Numbers from 0.00001 up to below 10 ^ 16 are positional and keep a digit
after the point; others have one digit before the point and an exponent. A tie
between two shortest decimals goes to the even one. -/
def floatLayout : FloatLayout := ⟨.toEven, some (-5, 15), true⟩

mutual

def written (form : JsonForm) (level : Nat) : Json → Text
  | .null => "null".toList
  | .integer number => Digits.writtenInt number.toInt
  | .float number => floatLayout.written number
  | .string content => quoted content
  | .array [] => ['[', ']']
  | .array (first :: rest) =>
      '[' :: form.lineBreak (level + 1) ++ first.written form (level + 1) ++
        writtenItems form (level + 1) rest ++ form.lineBreak level ++ [']']
  | .object [] => ['{', '}']
  | .object ((name, first) :: rest) =>
      '{' :: form.lineBreak (level + 1) ++ quoted name ++ form.colon ++
        first.written form (level + 1) ++ writtenMembers form (level + 1) rest ++
        form.lineBreak level ++ ['}']

def writtenItems (form : JsonForm) (level : Nat) : List Json → Text
  | [] => []
  | item :: rest =>
      ',' :: form.lineBreak level ++ item.written form level ++ writtenItems form level rest

def writtenMembers (form : JsonForm) (level : Nat) : List (Text × Json) → Text
  | [] => []
  | (name, value) :: rest =>
      ',' :: form.lineBreak level ++ quoted name ++ form.colon ++ value.written form level ++
        writtenMembers form level rest

end

def document (form : JsonForm) (value : Json) : Text := value.written form 0

end Json
end Stencil
