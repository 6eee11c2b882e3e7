import Stencil.CommandLine.Help
import Stencil.CommandLine.Run

/-!
The program itself: it reads the arguments and the source, and prints the
outcome. `Pattern.refusal?` speaks for the matcher here and nowhere before.
-/
namespace Stencil

partial def drain (stream : IO.FS.Stream) (sofar : ByteArray) : IO ByteArray := do
  let chunk ← stream.read 65536
  if chunk.isEmpty then return sofar else drain stream (sofar ++ chunk)

/-- The number of a system error, which is given with either sign. -/
def errorNumber (code : UInt32) : Nat := min code.toNat (-code).toNat

def readFault (error : IO.Error) : ReadFault :=
  match error with
  | .noFileOrDirectory _ _ _ => .missing
  | .permissionDenied _ _ _ => .denied
  | .inappropriateType _ code _ => if errorNumber code = 20 then .notDirectory else .directory
  | .invalidArgument _ code _ =>
      if errorNumber code = 36 then .nameTooLong else .other (toString error)
  | _ => .other (toString error)

def readFile (path : Text) : IO (Except ReadFault Bytes) := do
  try
    return .ok (← IO.FS.readBinFile (String.ofList path)).toList
  catch error =>
    return .error (readFault error)

def supplyFor (options : Options) : IO Supply := do
  if !options.readsSource Pattern.refusal? then return ⟨[], fun _ => .ok []⟩
  match options.source with
  | .arguments _ => return ⟨[], fun _ => .ok []⟩
  | .file path =>
      let content ← readFile path
      return ⟨[], fun _ => content⟩
  | .standardInput =>
      let content ← drain (← IO.getStdin) ByteArray.empty
      return ⟨content.toList, fun _ => .error .missing⟩

def printAll (output errors : Text) : IO Unit := do
  let screen ← IO.getStdout
  screen.putStr (String.ofList output)
  screen.flush
  (← IO.getStderr).putStr (String.ofList errors)

end Stencil

open Stencil in
def main (arguments : List String) : IO UInt32 := do
  match Options.ofArguments (arguments.map String.toList) with
  | .error usage =>
      let (output, errors) := usage.outcomeText
      printAll output errors
      return UInt32.ofNat usage.exitCode
  | .ok options =>
      let color := !options.has .noColor && (← (← IO.getStdout).isTty)
      let outcome := options.run Pattern.refusal? color (← supplyFor options)
      printAll outcome.output outcome.errors
      return UInt32.ofNat outcome.code
