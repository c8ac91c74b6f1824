import WrapLint.Command.Check
import WrapLint.Command.Init
import WrapLint.Command.Styles
import WrapLint.Command.Validate
import WrapLint.CommandLine.Parser

/-!
# The program

**Input.**  The environment, a disk, the arguments, and the order in which documents get done.

**Output.**  The outcome of the command that the arguments ask for.  Of the notes only those
that the invocation wants are left.
-/

namespace WrapLint
namespace Program

/-- The name and version of the program. -/
def versionText : String :=
  "wrap-guard 0.1.0\n"

/-- How the program is called. -/
def usageText : String :=
  "Usage: wrap-guard [OPTIONS] <COMMAND>\n\nFor more information, try '--help'.\n"

/-- The help of the program. -/
def helpText : String :=
  String.intercalate "\n"
    ["Lints pre-parsed template documents (*.slim.json) for the configured attribute wrapper",
      "style: none, round, curly, square or any.",
      "",
      "Usage: wrap-guard [OPTIONS] <COMMAND>",
      "",
      "Commands:",
      "  check [PATHS]...   Lint documents",
      "    -c, --config <FILE>   Settings file",
      "    -s, --style <STYLE>   Override the style",
      "    -f, --format <FORM>   text or json",
      "    -o, --output <FILE>   Write the report to a file",
      "  init               Write a settings file",
      "    -o, --output <FILE>   File to write",
      "    -s, --style <STYLE>   Style to ask for",
      "        --force           Overwrite the file",
      "  config validate    Check a settings file",
      "    -c, --config <FILE>   Settings file",
      "  styles             List the styles",
      "",
      "Options:",
      "  -v, --verbose...      Take more notes",
      "  -q, --quiet           Print no report",
      "      --color <WHEN>    auto, always or never",
      "      --no-config       Use no settings file",
      "  -h, --help            Print help",
      "  -V, --version         Print version",
      "",
      "Exit codes: 0 no lints, 1 lints found, 2 configuration or runtime error",
      ""]

/-- The outcome of a command, with all its notes. -/
def runCommand (schedule : Check.Schedule) (environment : Environment) (invocation : Invocation)
    (disk : Disk) : Outcome :=
  match invocation.command with
  | .check options => Check.run schedule environment invocation options disk
  | .init options => Init.run options disk
  | .validate path => Validate.run path disk
  | .styles => Styles.run disk

/-- The outcome of a command line that asks for no command. -/
def stop (disk : Disk) : CommandLine.Stop → Outcome
  | .help => ⟨Outcome.success, helpText, "", [], disk⟩
  | .version => ⟨Outcome.success, versionText, "", [], disk⟩
  | .usage => ⟨Outcome.failure, "", usageText, [], disk⟩

/-- The outcome of a run in which documents get done in the order of a schedule. -/
def runWith (schedule : Check.Schedule) (environment : Environment) (disk : Disk)
    (args : List String) : Outcome :=
  match CommandLine.parse args with
  | .error reason => stop disk reason
  | .ok invocation =>
    let outcome := runCommand schedule environment invocation disk
    { outcome with notes := outcome.notes.filter (Note.isShown invocation.logLimit) }

/-- The outcome of a run that lints one document after another. -/
def run (environment : Environment) (disk : Disk) (args : List String) : Outcome :=
  runWith .inOrder environment disk args

end Program
end WrapLint
