import Mathlib.Data.List.Forall2
import Stencil.Proofs.Reader.Matching
import Stencil.Report

/-!
What a report shows, text by text. Each text that was read has a document of its own, null
where it was not accepted, and an explanation says of each tag in turn which group it stands
for, where it stands and between what.
-/
namespace Stencil.Report

/-- The content in a style. In colour it stands behind a reset and the escape of the style, and
before another reset. -/
inductive Dressed (style : String) (content : Text) : Bool → Text → Prop
  | plain : Dressed style content false content
  | coloured : Dressed style content true
      (("\x1B[0m\x1B[" ++ style ++ "m").toList ++ content ++ "\x1B[0m".toList)

section Documents
variable {reader : Reader} {source : Text}

inductive Shows (reader : Reader) (color : Bool) (form : JsonForm) (text : Text) : Text → Prop
  | null {shown : Text} (missed : reader.accepts text = false)
      (dressed : Dressed "33" "null\n".toList color shown) : Shows reader color form text shown
  | document {table : Table} (read : reader.read text = some table) :
      Shows reader color form text (Json.document form (Json.ofTable table) ++ ['\n'])

end Documents

section Explanation

def beside (found : Option Char) : Text := (found.map Quoted.written).getD ['-']

def ExplainsTag (color : Bool) (tag : Tag) (shown : Text) : Prop :=
  ∃ group place,
    Dressed "36" (tag.key.label tag.specifier ++ " => (".toList ++ tag.shape.written ++ [')'])
      color group ∧
    Dressed "2" ("  at byte ".toList ++ Digits.written tag.offset ++ ", between ".toList ++
      beside tag.before ++ " and ".toList ++ beside tag.after ++ ['\n']) color place ∧
    shown = group ++ place

def Explains (color : Bool) (reader : Reader) (shown : Text) : Prop :=
  ∃ title tags, Dressed "1" "pattern".toList color title ∧
    List.Forall₂ (ExplainsTag color) reader.tags tags ∧
    shown = title ++ ' ' :: reader.pattern.written ++ '\n' :: tags.flatten

end Explanation
end Stencil.Report
