import Stencil.CommandLine.Options

/-!
What is said to someone who calls the program in a way it cannot run, or who
asks for help.
-/
namespace Stencil

def helpText : String :=
  "Read typed values out of text by a template\n\n" ++
  "Usage: stencil [OPTIONS] <TEMPLATE> [INPUTS]...\n\n" ++
  "Options:\n" ++
  "  -f, --file <FILE>  Read input from a file instead of stdin\n" ++
  "  -l, --lines        Treat every line of stdin or the file as a separate input\n" ++
  "  -p, --parallel     Read inputs in parallel\n" ++
  "      --pretty       Pretty-print JSON output\n" ++
  "      --explain      Show the pattern and its tags, then exit\n" ++
  "      --no-color     Disable colored output\n" ++
  "  -h, --help         Print help\n" ++
  "  -V, --version      Print version\n"

def Usage.message : Usage → String
  | .missingTemplate => "error: a template is required\n"
  | .unknownOption => "error: unexpected argument\n"
  | .conflict => "error: an argument cannot be used with another one\n"
  | .invalidValue => "error: a value is missing or empty\n"
  | .unneededValue => "error: an option takes no value\n"
  | .help => helpText
  | .version => "stencil 0.1.0\n"

-- Help goes to standard output, everything else to the error stream.
def Usage.outcomeText (usage : Usage) : Text × Text :=
  if usage.exitCode = 0 then (usage.message.toList, []) else ([], usage.message.toList)

end Stencil
