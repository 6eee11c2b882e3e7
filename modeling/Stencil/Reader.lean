import Stencil.Pattern.Fit
import Stencil.Pattern.Limit
import Stencil.Pattern.Written
import Stencil.Template.Conflict
import Stencil.Text.Utf8
import Stencil.Value.Table

/-!
A reader is a template that passed all checks, ready for any number of inputs.
An input that fits the template gives a table with a value at the path of each
tag.
-/
namespace Stencil

/-- Why a template cannot be used for reading, in the order of the checks. -/
inductive ReaderFault where
  | template (fault : TemplateFault)
  | noTags
  | conflictingKey (path : Path)
  | ofRefusal (refusal : Refusal)
  deriving DecidableEq, Repr

namespace ReaderFault

def message : ReaderFault → String
  | .template fault => fault.message
  | .noTags => "template has no tags"
  | .conflictingKey path =>
      s!"key '{String.ofList path.written}' is used both as a value and as a parent of other keys"
  | .ofRefusal refusal => "failed to build pattern regex: " ++ refusal.message

-- What the matcher says stands in the message and once more as the cause behind it.
def chain (fault : ReaderFault) : List String :=
  match fault with
  | .ofRefusal refusal => [fault.message, refusal.message]
  | _ => [fault.message]

end ReaderFault

namespace Template

/-- The checks on a template as a whole. The matcher has the last word: a
pattern may be refused for reasons of its own. -/
def check (refusal? : Pattern → Option Refusal) (template : Template) :
    Except ReaderFault Unit :=
  if template.tags = [] then .error .noTags
  else
    match firstConflict? (template.tags.map Tag.key) with
    | some path => .error (.conflictingKey path)
    | none =>
        match refusal? template.pattern with
        | some refusal => .error (.ofRefusal refusal)
        | none => .ok ()

end Template

structure Reader where
  source : Text
  template : Template
  deriving DecidableEq, Repr

namespace Reader

def compile (refusal? : Pattern → Option Refusal) (source : Text) :
    Except ReaderFault Reader := do
  let template ← (Template.ofText source).mapError .template
  template.check refusal?
  return ⟨source, template⟩

def tags (reader : Reader) : List Tag := reader.template.tags

def pattern (reader : Reader) : Pattern := reader.template.pattern

def captures (reader : Reader) : List Capture := reader.tags.map Tag.capture

def entriesOf (reader : Reader) (captured : List Text) : List (Path × Scalar) :=
  (reader.tags.zip captured).map fun entry => (entry.1.key, Scalar.ofText entry.2)

def tableOf (reader : Reader) (captured : List Text) : Table :=
  Table.placeAll (reader.entriesOf captured)

/-- The values in an input, if the input as a whole fits the template. A table
without values would count as no match. -/
def read (reader : Reader) (input : Text) : Option Table :=
  match reader.pattern.fit? input with
  | none => none
  | some captured =>
      let table := reader.tableOf captured
      if table = .empty then none else some table

def accepts (reader : Reader) (input : Text) : Bool := reader.pattern.hasCut input

def readBytes (reader : Reader) (input : Bytes) : Except Utf8.Fault (Option Table) :=
  (Utf8.decode input).map reader.read

end Reader

def Utf8.Fault.refusal (fault : Utf8.Fault) : String := "input is not text: " ++ fault.message

end Stencil
