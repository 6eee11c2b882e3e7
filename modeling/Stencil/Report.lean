import Stencil.Reader
import Stencil.Json.Printer
import Stencil.Text.Quoted

/-!
What is printed: one document and a line end for each result, or an
explanation of the template. In colour, each style is set after a reset and
reset after its text.
-/
namespace Stencil.Report

inductive Style where
  | bold
  | dim
  | cyan
  | yellow
  deriving DecidableEq, Repr

def Style.code : Style → Text
  | .bold => ['1']
  | .dim => ['2']
  | .cyan => ['3', '6']
  | .yellow => ['3', '3']

def escape (code : Text) : Text := '\x1B' :: '[' :: code ++ ['m']

def styled (color : Bool) (style : Style) (content : Text) : Text :=
  if color then escape ['0'] ++ escape style.code ++ content ++ escape ['0'] else content

-- One result; an input without a match is reported as null.
def result (color : Bool) (form : JsonForm) : Option Table → Text
  | none => styled color .yellow "null\n".toList
  | some table => Json.document form (Json.ofTable table) ++ ['\n']

def results (color : Bool) (form : JsonForm) (all : List (Option Table)) : Text :=
  all.flatMap (result color form)

def neighbour : Option Char → Text
  | some c => Quoted.written c
  | none => ['-']

def explainedTag (color : Bool) (tag : Tag) : Text :=
  styled color .cyan tag.explained ++
    styled color .dim
      ("  at byte ".toList ++ Digits.written tag.offset ++ ", between ".toList ++
        neighbour tag.before ++ " and ".toList ++ neighbour tag.after ++ ['\n'])

def explanation (color : Bool) (reader : Reader) : Text :=
  styled color .bold "pattern".toList ++ ' ' :: reader.pattern.written ++
    '\n' :: reader.tags.flatMap (explainedTag color)

end Stencil.Report
