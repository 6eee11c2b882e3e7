import Stencil.Batch
import Stencil.CommandLine.Options
import Stencil.Report

/-!
One run of the program. Faults are reported in the order in which they are
met: the template, the source, an input that is no text; nothing else is
printed then. An explanation reads no inputs.
-/
namespace Stencil

structure Outcome where
  code : Nat
  output : Text
  errors : Text
  deriving DecidableEq, Repr

namespace Outcome

def fault (chain : List String) : Outcome :=
  ⟨2, [], ("error: " ++ String.intercalate ": " chain ++ "\n").toList⟩

-- The results of all inputs. The code tells whether every input matched.
def ofResults (color : Bool) (form : JsonForm) (results : List (Option Table)) : Outcome :=
  ⟨if results.all Option.isSome then 0 else 1, Report.results color form results, []⟩

end Outcome

namespace Options

def form (options : Options) : JsonForm := if options.has .pretty then .spread else .compact

-- The faults of a template name the template.
def reader (refusal? : Pattern → Option Refusal) (options : Options) :
    Except (List String) Reader :=
  (Reader.compile refusal? options.template).mapError fun fault =>
    s!"Invalid template '{String.ofList options.template}'" :: fault.chain

def results (options : Options) (reader : Reader) (supply : Supply) :
    Except (List String) (List (Option Table)) := do
  let inputs ← (options.source.inputs (options.has .lines) supply).mapError SourceFault.chain
  (reader.readAll (options.has .parallel) inputs).mapError BatchFault.chain

def readsSource (refusal? : Pattern → Option Refusal) (options : Options) : Bool :=
  (options.reader refusal?).isOk && !options.has .explain

def run (refusal? : Pattern → Option Refusal) (options : Options) (color : Bool)
    (supply : Supply) : Outcome :=
  match options.reader refusal? with
  | .error chain => .fault chain
  | .ok reader =>
      if options.has .explain then ⟨0, Report.explanation color reader, []⟩
      else
        match options.results reader supply with
        | .error chain => .fault chain
        | .ok results => .ofResults color options.form results

end Options
end Stencil
