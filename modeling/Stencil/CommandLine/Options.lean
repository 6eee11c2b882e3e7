import Stencil.Source

/-!
The arguments of the program. Options may stand anywhere among the operands
until two dashes end them. The first operand is the template, the others are
inputs. The file option takes its value from the same argument or from the next
one; a value from the next argument is settled only when something else is
read, so its faults are reported then.
-/
namespace Stencil

inductive Flag where
  | lines
  | parallel
  | pretty
  | explain
  | noColor
  deriving DecidableEq, Repr

inductive Usage where
  | missingTemplate
  | unknownOption
  | conflict
  | invalidValue
  | unneededValue
  | help
  | version
  deriving DecidableEq, Repr

def Usage.exitCode : Usage → Nat
  | .help | .version => 0
  | _ => 2

structure Options where
  template : Text
  inputs : List Text
  file : Option Text
  flags : List Flag
  deriving DecidableEq, Repr

namespace Options

def has (options : Options) (flag : Flag) : Bool := options.flags.contains flag

-- A named file comes first, then inputs among the arguments.
def source (options : Options) : Source :=
  match options.file, options.inputs with
  | some path, _ => .file path
  | none, [] => .standardInput
  | none, inputs => .arguments inputs

end Options

inductive OptionName where
  | flag (flag : Flag)
  | file
  | help
  | version
  deriving DecidableEq, Repr

namespace OptionName

def long : List (Text × OptionName) :=
  [("lines".toList, .flag .lines), ("parallel".toList, .flag .parallel),
   ("pretty".toList, .flag .pretty), ("explain".toList, .flag .explain),
   ("no-color".toList, .flag .noColor), ("file".toList, .file), ("help".toList, .help),
   ("version".toList, .version)]

def short : List (Char × OptionName) :=
  [('l', .flag .lines), ('p', .flag .parallel), ('f', .file), ('h', .help), ('V', .version)]

end OptionName

inductive Waiting where
  | nothing
  | forValue
  | holding (value : Text)
  deriving DecidableEq, Repr

structure Draft where
  operands : List Text
  file : Option Text
  flags : List Flag
  waiting : Waiting
  deriving DecidableEq, Repr

namespace Draft

def initial : Draft := ⟨[], none, [], .nothing⟩

-- A second file is a conflict even when its name is empty.
def setFile (draft : Draft) (path : Text) : Except Usage Draft :=
  if draft.file.isSome then .error .conflict
  else if path = [] then .error .invalidValue
  else .ok { draft with file := some path, waiting := .nothing }

def settle (draft : Draft) : Except Usage Draft :=
  match draft.waiting with
  | .nothing => .ok draft
  | .forValue => .error .invalidValue
  | .holding value => draft.setFile value

def setFlag (draft : Draft) (flag : Flag) : Except Usage Draft :=
  if draft.flags.contains flag then .error .conflict
  else .ok { draft with flags := draft.flags ++ [flag] }

def option (draft : Draft) (name : OptionName) : Except Usage Draft := do
  let settled ← draft.settle
  match name with
  | .flag flag => settled.setFlag flag
  | .file => return { settled with waiting := .forValue }
  | .help => throw .help
  | .version => throw .version

def operand (draft : Draft) (content : Text) : Except Usage Draft := do
  let settled ← draft.settle
  return { settled with operands := settled.operands ++ [content] }

def optionWithValue (draft : Draft) (name : OptionName) (value : Text) : Except Usage Draft :=
  match name with
  | .file => do (← draft.settle).setFile value
  | _ => .error .unneededValue

def longOption (draft : Draft) (content : Text) : Except Usage Draft :=
  match OptionName.long.lookup (content.takeWhile (· ≠ '=')) with
  | none => .error .unknownOption
  | some name =>
      match content.dropWhile (· ≠ '=') with
      | [] => draft.option name
      | _ :: value => draft.optionWithValue name value

/-- The rest of an argument after one dash: letters of options, and after the
letter of the file option its value, with or without an equals sign. -/
def shortOptions (draft : Draft) : Text → Except Usage Draft
  | [] => .ok draft
  | letter :: rest =>
      match OptionName.short.lookup letter with
      | none => .error .unknownOption
      | some .file =>
          match rest with
          | [] => draft.option .file
          | '=' :: value => draft.optionWithValue .file value
          | value => draft.optionWithValue .file value
      | some name => do (← draft.option name).shortOptions rest

def plain (draft : Draft) (content : Text) : Except Usage Draft :=
  match draft.waiting with
  | .forValue => .ok { draft with waiting := .holding content }
  | _ => draft.operand content

-- Reads all arguments. A single dash is no option.
def read (draft : Draft) : List Text → Except Usage Draft
  | [] => draft.settle
  | ['-', '-'] :: operands => do (← operands.foldlM operand draft).settle
  | ('-' :: '-' :: content) :: rest => do (← draft.longOption content).read rest
  | ('-' :: letter :: letters) :: rest => do
      (← draft.shortOptions (letter :: letters)).read rest
  | content :: rest => do (← draft.plain content).read rest

def finish (draft : Draft) : Except Usage Options :=
  match draft.operands with
  | [] => .error .missingTemplate
  | template :: inputs =>
      if draft.file.isSome ∧ inputs ≠ [] then .error .conflict
      else .ok ⟨template, inputs, draft.file, draft.flags⟩

end Draft

def Options.ofArguments (arguments : List Text) : Except Usage Options := do
  (← Draft.initial.read arguments).finish

end Stencil
