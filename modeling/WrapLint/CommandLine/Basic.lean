import WrapLint.Log
import WrapLint.Report.Basic
import WrapLint.Style

/-!
# What a command line asks for

**Contents.**  The commands with their options, the options that every command has, and what
they say about the log and about colours.
-/

namespace WrapLint

/-- When reports are coloured. -/
inductive ColorChoice where
  | auto
  | always
  | never
  deriving DecidableEq

/-- The options of `check`. -/
structure CheckOptions where
  paths : List String
  config : Option String
  style : Option Style
  format : ReportFormat
  output : Option String
  deriving DecidableEq

/-- The options of `init`. -/
structure InitOptions where
  output : String
  style : Style
  force : Bool
  deriving DecidableEq

/-- The commands. -/
inductive Command where
  | check (options : CheckOptions)
  | init (options : InitOptions)
  | validate (config : String)
  | styles
  deriving DecidableEq

/-- A command with the options that every command has. -/
structure Invocation where
  verbosity : Nat
  quiet : Bool
  color : ColorChoice
  noConfig : Bool
  command : Command
  deriving DecidableEq

namespace ColorChoice

/-- The word for a choice. -/
def keyword : ColorChoice → String
  | .auto => "auto"
  | .always => "always"
  | .never => "never"

/-- The choice with this word. -/
def ofKeyword? (word : String) : Option ColorChoice :=
  [auto, always, never].find? (fun choice => choice.keyword == word)

/-- Whether reports are coloured.  Left to itself the program colours what goes to a terminal,
unless the environment asks for no colour. -/
def isColoured (choice : ColorChoice) (noColor terminal : Bool) : Bool :=
  match choice with
  | .always => true
  | .never => false
  | .auto => terminal && !noColor

end ColorChoice

/-- The notes that are shown: more with each step of verbosity, and only errors for a quiet
run without any. -/
def Invocation.logLimit (invocation : Invocation) : LogLevel :=
  match invocation.verbosity with
  | 0 => if invocation.quiet then .error else .warn
  | 1 => .info
  | _ => .debug

/-- The paths that a command looks at or writes to. -/
def Command.touchedPaths : Command → List String
  | .check options => options.paths ++ options.config.toList ++ options.output.toList
  | .init options => [options.output]
  | .validate config => [config]
  | .styles => []

/-- The path that a command may write to. -/
def Command.writtenPath? : Command → Option String
  | .check options => options.output
  | .init options => some options.output
  | .validate _ | .styles => none

end WrapLint
