import Stencil.CommandLine.Run
import Stencil.Proofs.Reader.Batches
import Stencil.Proofs.Report.Shown
import Stencil.Proofs.Source.Inputs

/-!
What a run of the program comes to, for any matcher. A run fails for its template, its file or
an input, tried in this order, and then it prints nothing; any other run prints an explanation
or the documents of all inputs, and its code tells whether every input was accepted.
-/
namespace Stencil

def Utf8.Malformed (input : Bytes) : Prop := ∀ text, Text.encode text ≠ input

structure Outcome.Reports (outcome : Outcome) (chain : List String) : Prop where
  code : outcome.code = 2
  output : outcome.output = []
  errors : outcome.errors = ("error: " ++ String.intercalate ": " chain ++ "\n").toList

namespace Options
variable {refusal? : Pattern → Option Refusal} {options : Options} {supply : Supply}
  {color : Bool} {reader : Reader}

section Inputs
variable {inputs : List Bytes}

def Unreadable (options : Options) (supply : Supply) (fault : SourceFault) : Prop :=
  options.file = some fault.path ∧ supply.file fault.path = .error fault.cause

/-- The inputs of a run: those of the file that is named, else the arguments behind the
template, else those of standard input. -/
inductive Supplies (options : Options) (supply : Supply) : List Bytes → Prop
  | file {path : Text} {content : Bytes} {inputs : List Bytes} (named : options.file = some path)
      (read : supply.file path = .ok content)
      (holds : Holds (.lines ∈ options.flags) content inputs) : Supplies options supply inputs
  | arguments (unnamed : options.file = none) (given : options.inputs ≠ []) :
      Supplies options supply (options.inputs.map Text.encode)
  | standardInput {inputs : List Bytes} (unnamed : options.file = none)
      (none : options.inputs = [])
      (holds : Holds (.lines ∈ options.flags) supply.standardInput inputs) :
      Supplies options supply inputs

end Inputs

def refusal (options : Options) (fault : ReaderFault) : List String :=
  s!"Invalid template '{String.ofList options.template}'" :: fault.chain

def Fails (refusal? : Pattern → Option Refusal) (options : Options) (supply : Supply) : Prop :=
  (∃ fault, Reader.compile refusal? options.template = .error fault) ∨
    .explain ∉ options.flags ∧
      ((∃ fault, options.Unreadable supply fault) ∨
        ∃ inputs, options.Supplies supply inputs ∧ ∃ input ∈ inputs, Utf8.Malformed input)

section Rows

variable (compiled : Reader.compile refusal? options.template = .ok reader)
include compiled

variable (reading : .explain ∉ options.flags)
include reading

end Rows

section Success

structure Printed (reader : Reader) (color : Bool) (form : JsonForm) (texts : List Text)
    (outcome : Outcome) : Prop where
  output : ∃ documents, List.Forall₂ (Report.Shows reader color form) texts documents ∧
    outcome.output = documents.flatten
  errors : outcome.errors = []
  all_iff : outcome.code = 0 ↔ ∀ text ∈ texts, reader.accepts text = true
  not_all_iff : outcome.code = 1 ↔ ∃ text ∈ texts, reader.accepts text = false

inductive Succeeds (refusal? : Pattern → Option Refusal) (options : Options) (color : Bool)
    (supply : Supply) (outcome : Outcome) : Prop
  | explained {reader : Reader}
      (compiled : Reader.compile refusal? options.template = .ok reader)
      (explain : .explain ∈ options.flags) (output : Report.Explains color reader outcome.output)
      (errors : outcome.errors = []) (code : outcome.code = 0) :
      Succeeds refusal? options color supply outcome
  | printed {reader : Reader} {form : JsonForm} {texts : List Text}
      (compiled : Reader.compile refusal? options.template = .ok reader)
      (reading : .explain ∉ options.flags) (spread : form = .spread ↔ .pretty ∈ options.flags)
      (supplied : options.Supplies supply (texts.map Text.encode))
      (printed : Printed reader color form texts outcome) :
      Succeeds refusal? options color supply outcome

variable {outcome : Outcome}

end Success

/-- What a run comes to. The faults of a template come before those of the file, and these
before those of the inputs. -/
structure Verdict (refusal? : Pattern → Option Refusal) (options : Options) (color : Bool)
    (supply : Supply) (outcome : Outcome) : Prop where
  failed_iff : outcome.code = 2 ↔ options.Fails refusal? supply
  silent : options.Fails refusal? supply → outcome.output = [] ∧
    ∃ reason : String, outcome.errors = ("error: " ++ reason ++ "\n").toList
  template : ∀ fault, Reader.compile refusal? options.template = .error fault →
    outcome.Reports (options.refusal fault)
  file : ∀ reader fault, Reader.compile refusal? options.template = .ok reader →
    .explain ∉ options.flags → options.Unreadable supply fault →
      outcome.Reports
        [s!"Failed to read input file '{String.ofList fault.path}'", fault.cause.message]
  input : ∀ reader inputs, Reader.compile refusal? options.template = .ok reader →
    .explain ∉ options.flags → options.Supplies supply inputs →
      (∃ input ∈ inputs, Utf8.Malformed input) →
        ∃ fault : BatchFault, fault.Blames inputs ∧
          outcome.Reports [s!"Input {fault.number} is not text",
            "input is not text: " ++ fault.fault.message, fault.fault.message]
  succeeded : ¬ options.Fails refusal? supply →
    outcome.errors = [] ∧ Succeeds refusal? options color supply outcome
  reads_iff : options.readsSource refusal? = true ↔
    (∃ reader, Reader.compile refusal? options.template = .ok reader) ∧
      .explain ∉ options.flags
  unread : options.readsSource refusal? = false →
    ∀ other, options.run refusal? color other = outcome

end Options
end Stencil
