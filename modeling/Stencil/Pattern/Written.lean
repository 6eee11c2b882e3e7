import Stencil.Pattern.Shape

/-!
The text of a pattern as a regular expression over the whole input: one group
for each capture, every literal character escaped where it would mean
something else. A dot in a class or a literal also stands for a line break.
-/
namespace Stencil

def isMeta (c : Char) : Bool :=
  ['\\', '.', '+', '*', '?', '(', ')', '|', '[', ']', '{', '}', '^', '$', '#', '&', '-',
   '~'].contains c

def escapeChar (c : Char) : Text := if isMeta c then ['\\', c] else [c]

def escaped (content : Text) : Text := content.flatMap escapeChar

namespace CharClass

def written : CharClass → Text
  | .noBrace => ['[', '^', '{', '}', ']']
  | .digit => "[0-9]".toList
  | .except barred => '[' :: '^' :: escapeChar barred ++ [']']
  | .only allowed => escapeChar allowed

end CharClass

def Count.quantifier : Count → Text
  | .exactly number _ => '{' :: Digits.written number.toNat ++ ['}']
  | .atLeast number =>
      if number = 0 then ['*']
      else if number = 1 then ['+']
      else '{' :: Digits.written number.toNat ++ [',', '}']

def Shape.written : Shape → Text
  | .run chars count => chars.written ++ count.quantifier
  | .decimal before after =>
      CharClass.digit.written ++ before.quantifier ++ (CharClass.only '.').written ++
        CharClass.digit.written ++ after.quantifier

def Piece.written : Piece → Text
  | .literal content => escaped content
  | .capture shape => '(' :: shape.written ++ [')']

-- The whole expression. Its end is the very end of the input.
def Pattern.written (pattern : Pattern) : Text :=
  "(?s)^".toList ++ pattern.flatMap Piece.written ++ ['$']

structure Capture where
  key : Path
  specifier : Option Specifier
  pattern : Text
  deriving DecidableEq, Repr

def Tag.capture (tag : Tag) : Capture := ⟨tag.key, tag.specifier, tag.shape.written⟩

def Capture.explained (capture : Capture) : Text :=
  capture.key.label capture.specifier ++ " => (".toList ++ capture.pattern ++ [')']

def Tag.explained (tag : Tag) : Text := tag.capture.explained

end Stencil
