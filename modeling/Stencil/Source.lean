import Stencil.Text.Basic

/-!
Where inputs come from. Arguments are inputs as they stand. The content of a
file or of standard input is one input without the line end at its end, or one
input for each line. A line end is a line feed with at most one carriage
return before it.
-/
namespace Stencil

inductive ReadFault where
  | missing
  | denied
  | notDirectory
  | directory
  | nameTooLong
  | other (reason : String)
  deriving DecidableEq, Repr

def ReadFault.message : ReadFault → String
  | .missing => "No such file or directory (os error 2)"
  | .denied => "Permission denied (os error 13)"
  | .notDirectory => "Not a directory (os error 20)"
  | .directory => "Is a directory (os error 21)"
  | .nameTooLong => "File name too long (os error 36)"
  | .other reason => reason

structure SourceFault where
  path : Text
  cause : ReadFault
  deriving DecidableEq, Repr

namespace SourceFault

def message (fault : SourceFault) : String :=
  s!"Failed to read input file '{String.ofList fault.path}'"

def chain (fault : SourceFault) : List String := [fault.message, fault.cause.message]

end SourceFault

def lineFeed : UInt8 := 10

def carriageReturn : UInt8 := 13

def dropReturn (line : Bytes) : Bytes :=
  if line.getLast? = some carriageReturn then line.dropLast else line

def dropLineEnd (content : Bytes) : Bytes :=
  if content.getLast? = some lineFeed then dropReturn content.dropLast else content

-- The lines of the content. The last line needs no line end.
def splitLines (content : Bytes) : List Bytes :=
  if content = [] then []
  else ((dropLineEnd content).splitOn lineFeed).map dropReturn

def contentInputs (lines : Bool) (content : Bytes) : List Bytes :=
  if lines then splitLines content else [dropLineEnd content]

structure Supply where
  standardInput : Bytes
  file : Text → Except ReadFault Bytes

inductive Source where
  | arguments (inputs : List Text)
  | file (path : Text)
  | standardInput
  deriving DecidableEq, Repr

def Source.inputs (source : Source) (lines : Bool) (supply : Supply) :
    Except SourceFault (List Bytes) :=
  match source with
  | .arguments inputs => .ok (inputs.map Text.encode)
  | .file path => ((supply.file path).mapError (SourceFault.mk path)).map (contentInputs lines)
  | .standardInput => .ok (contentInputs lines supply.standardInput)

end Stencil
