import Elementwise.CommandLine.Options

/-!
# Help on the command line

The usage that goes with usage errors, and the text that `--help` prints.
-/

set_option autoImplicit false
namespace Elementwise
namespace Help

/-- The name of the program. -/
def program : Text := .ofString "cwise"

/-- Lines as a text. -/
def ofLines (lines : List String) : Text :=
  lines.flatMap fun l => Text.ofString l ++ [.scalar '\n']

/-- How the program is used. -/
def usage : Text :=
  ofLines
    ["usage: cwise [-h] [--config CONFIG] [--global NAME] [--format \x7bjson,text\x7d]",
     "             [--output OUTPUT] [--verbose]",
     "             files [files ...]"]

/-- What the program is for, its arguments, and examples. -/
def text : Text :=
  usage ++ ofLines
    ["",
     "Compile JavaScript elementwise routines for kernel inlining",
     "",
     "positional arguments:",
     "  files                 Routine source files, one function each",
     "",
     "options:",
     "  -h, --help            show this help message and exit",
     "  --config CONFIG, -c CONFIG",
     "                        YAML configuration file path",
     "  --global NAME, -g NAME",
     "                        Additional ambient global (repeatable)",
     "  --format \x7bjson,text\x7d, -f \x7bjson,text\x7d",
     "                        Output format",
     "  --output OUTPUT, -o OUTPUT",
     "                        Output file path",
     "  --verbose, -v         Verbose output",
     "",
     "Examples:",
     "  cwise add.js                         # Print compiled routine as JSON",
     "  cwise add.js scale.js --format text  # Readable report for two routines",
     "  cwise kernel.js --global lookup      # Treat 'lookup' as an ambient global",
     "  cwise kernel.js --config cwise.yaml  # Load globals from a YAML file",
     "        "]

/-- What is printed for a usage error. -/
def refusal (e : UsageError) : Text :=
  usage ++ program ++ .ofString ": error: " ++ e.message ++ [.scalar '\n']

end Help
end Elementwise
