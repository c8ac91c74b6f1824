import WrapLint.CommandLine.Basic

/-!
# Reading a command line

**Input.**  The arguments of the program.

**Algorithm.**  Arguments are read from left to right, on one level of commands at a time: the
program itself, a command, and for `config` the command below it.  The name of a command ends
a level.  The first fault, request for help or request for the version ends the reading.

**Rules.**
* A long option is written `--name` or `--name=value`, a short one `-n`, and its value
  follows as `-nvalue`, `-n=value` or as the next argument.  Short options may be bundled; the
  last of a bundle may have a value.
* A value that is an argument of its own must not begin with a dash, unless it is a lone dash.
  It is looked at when the reading of its level goes on: a fault in it comes after whatever
  ends the reading of a level below.
* After `--` every argument is a path.
* On one level an option stands at most once, except `--verbose`, which counts.
* The options that every command has may stand on any level.  Those on the innermost level
  that has them are in force.

**Output.**  An `Invocation`, or the reason why there is none.
-/

namespace WrapLint
namespace CommandLine

/-- Why a command line asks for no command. -/
inductive Stop where
  | help
  | version
  | usage
  deriving DecidableEq

/-- The options. -/
inductive Switch where
  | verbose
  | quiet
  | color
  | noConfig
  | config
  | style
  | format
  | output
  | force
  | help
  | version
  deriving DecidableEq

namespace Switch

/-- The long name. -/
def long : Switch → String
  | .verbose => "verbose"
  | .quiet => "quiet"
  | .color => "color"
  | .noConfig => "no-config"
  | .config => "config"
  | .style => "style"
  | .format => "format"
  | .output => "output"
  | .force => "force"
  | .help => "help"
  | .version => "version"

/-- The short name, if there is one. -/
def short? : Switch → Option Char
  | .verbose => some 'v'
  | .quiet => some 'q'
  | .config => some 'c'
  | .style => some 's'
  | .format => some 'f'
  | .output => some 'o'
  | .help => some 'h'
  | .version => some 'V'
  | .color | .noConfig | .force => none

/-- Whether the option has a value. -/
def takesValue : Switch → Bool
  | .color | .config | .style | .format | .output => true
  | _ => false

/-- Whether the option may have this value. -/
def accepts (switch : Switch) (value : String) : Bool :=
  match switch with
  | .color => (ColorChoice.ofKeyword? value).isSome
  | .style => (Style.ofKeyword? value).isSome
  | .format => (ReportFormat.ofWord? value).isSome
  | .config | .output => value != ""
  | _ => true

/-- The options that every command has. -/
def globals : List Switch :=
  [.verbose, .quiet, .color, .noConfig]

end Switch

/-- The levels of commands. -/
inductive Level where
  | program
  | check
  | init
  | config
  | validate
  | styles
  deriving DecidableEq

namespace Level

/-- The options of a level that are not those of every command. -/
def ownSwitches : Level → List Switch
  | .program => [.help, .version]
  | .check => [.config, .style, .format, .output, .help]
  | .init => [.output, .style, .force, .help]
  | .validate => [.config, .help]
  | .config | .styles => [.help]

/-- The options of a level. -/
def switches (level : Level) : List Switch :=
  Switch.globals ++ level.ownSwitches

/-- Whether a command must follow on this level. -/
def needsCommand : Level → Bool
  | .program | .config => true
  | _ => false

/-- The command below this level that has this name. -/
def command? : Level → String → Option Level
  | .program, "check" => some .check
  | .program, "init" => some .init
  | .program, "config" => some .config
  | .program, "styles" => some .styles
  | .config, "validate" => some .validate
  | _, _ => none

/-- Whether arguments that are no options are paths on this level. -/
def takesPaths : Level → Bool
  | .check => true
  | _ => false

/-- The option of a level with this long name. -/
def byLong? (level : Level) (name : String) : Option Switch :=
  level.switches.find? (fun switch => switch.long == name)

/-- The option of a level with this short name. -/
def byShort? (level : Level) (name : Char) : Option Switch :=
  level.switches.find? (fun switch => switch.short? == some name)

end Level

/-- What was given on one level: options with their values, and paths, in order. -/
structure Given where
  switches : List (Switch × String)
  paths : List String

namespace Given

/-- Nothing. -/
def nothing : Given :=
  ⟨[], []⟩

/-- Whether an option was given. -/
def has (given : Given) (switch : Switch) : Bool :=
  given.switches.any (fun entry => entry.1 == switch)

/-- The value of an option that was given. -/
def value? (given : Given) (switch : Switch) : Option String :=
  given.switches.lookup switch

/-- What is given after one more option.  A request for help or for the version is met at
once. -/
def take (given : Given) (switch : Switch) (value : String) : Except Stop Given :=
  match switch with
  | .help => .error .help
  | .version => .error .version
  | switch =>
    if (switch != .verbose && given.has switch) || !switch.accepts value then .error .usage
    else .ok { given with switches := given.switches ++ [(switch, value)] }

/-- What is given after one more path. -/
def takePath (given : Given) (path : String) : Except Stop Given :=
  if path = "" then .error .usage else .ok { given with paths := given.paths ++ [path] }

end Given

section Arguments

/-- A bundle of short options, without its dash.  If the last one has its value in the next
argument, it is handed back. -/
def readBundle (level : Level) (given : Given) :
    List Char → Except Stop (Given × Option Switch)
  | [] => .ok (given, none)
  | c :: rest =>
    match level.byShort? c with
    | none => .error .usage
    | some switch =>
      if switch.takesValue then
        match rest with
        | [] => .ok (given, some switch)
        | '=' :: value => do .ok (← given.take switch (String.ofList value), none)
        | value => do .ok (← given.take switch (String.ofList value), none)
      else do readBundle level (← given.take switch "") rest

/-- A long option, without its dashes.  If its value is the next argument, it is handed
back. -/
def readLong (level : Level) (given : Given) (text : List Char) :
    Except Stop (Given × Option Switch) :=
  let name := text.takeWhile (fun c => c != '=')
  match level.byLong? (String.ofList name), text.drop name.length with
  | none, _ => .error .usage
  | some switch, [] =>
    if switch.takesValue then .ok (given, some switch)
    else do .ok (← given.take switch "", none)
  | some switch, _ :: value =>
    if switch.takesValue then do .ok (← given.take switch (String.ofList value), none)
    else .error .usage

/-- The kinds of arguments. -/
inductive Argument where
  | endOfOptions
  | long (text : List Char)
  | bundle (text : List Char)
  | plain

/-- The kind of an argument.  A lone dash is a plain one. -/
def Argument.ofString (arg : String) : Argument :=
  match arg.toList with
  | ['-', '-'] => .endOfOptions
  | '-' :: '-' :: text => .long text
  | '-' :: c :: text => .bundle (c :: text)
  | _ => .plain

/-- What the arguments after the word `help` get: help, if they name a command. -/
def helpAbout (level : Level) : List String → Stop
  | [] => .help
  | name :: rest =>
    match level.command? name with
    | some below => helpAbout below rest
    | none => if level.needsCommand ∧ name = "help" ∧ rest = [] then .help else .usage

/-- What is given on a level and on the levels below it, outermost first.  `given` may be a
fault that is not reported yet, that of a value which was an argument of its own. -/
def readLevel (level : Level) (given : Except Stop Given) :
    List String → Except Stop (List (Level × Given))
  | [] => if level.needsCommand then .error .usage else do .ok [(level, ← given)]
  | arg :: rest =>
    let go (read : Given → Except Stop (Given × Option Switch)) := do
      match ← read (← given) with
      | (given, none) => readLevel level (.ok given) rest
      | (given, some switch) =>
        match rest with
        | [] => .error .usage
        | value :: rest =>
          match Argument.ofString value with
          | .plain => readLevel level (given.take switch value) rest
          | _ => .error .usage
    match Argument.ofString arg with
    | .endOfOptions =>
      if level.needsCommand then .error .usage
      else if level.takesPaths then do .ok [(level, ← rest.foldlM Given.takePath (← given))]
      else if rest = [] then do .ok [(level, ← given)]
      else .error .usage
    | .long text => go (fun given => readLong level given text)
    | .bundle text => go (fun given => readBundle level given text)
    | .plain =>
      match level.command? arg with
      | some below => do
        let levels ← readLevel below (.ok .nothing) rest
        .ok ((level, ← given) :: levels)
      | none =>
        if level.needsCommand then
          .error (if arg = "help" then helpAbout level rest else .usage)
        else if level.takesPaths then do
          readLevel level (.ok (← (← given).takePath arg)) rest
        else .error .usage

end Arguments

section Meaning

/-- The innermost level on which an option was given. -/
def innermost (switch : Switch) (levels : List (Level × Given)) : Given :=
  ((levels.map Prod.snd).reverse.find? (fun given => given.has switch)).getD .nothing

/-- How often `--verbose` was given, at most 255 times. -/
def verbosity (levels : List (Level × Given)) : Nat :=
  min 255 (((innermost .verbose levels).switches.filter
    (fun entry => entry.1 == .verbose)).length)

/-- The command that a level and what was given on it mean. -/
def command? : Level → Given → Option Command
  | .check, given =>
    some (.check
      { paths := if given.paths.isEmpty then ["."] else given.paths
        config := given.value? .config
        style := (given.value? .style).bind Style.ofKeyword?
        format := ((given.value? .format).bind ReportFormat.ofWord?).getD .text
        output := given.value? .output })
  | .init, given =>
    some (.init
      { output := (given.value? .output).getD ".wrap-guard.toml"
        style := ((given.value? .style).bind Style.ofKeyword?).getD .standard
        force := given.has .force })
  | .validate, given => some (.validate ((given.value? .config).getD ".wrap-guard.toml"))
  | .styles, _ => some .styles
  | .program, _ | .config, _ => none

/-- What the levels mean together. -/
def invocation? (levels : List (Level × Given)) : Option Invocation := do
  let (level, given) ← levels.getLast?
  let command ← command? level given
  some
    { verbosity := verbosity levels
      quiet := (innermost .quiet levels).has .quiet
      color :=
        (((innermost .color levels).value? .color).bind ColorChoice.ofKeyword?).getD .auto
      noConfig := (innermost .noConfig levels).has .noConfig
      command := command }

/-- What a command line asks for. -/
def parse (args : List String) : Except Stop Invocation := do
  match invocation? (← readLevel .program (.ok .nothing) args) with
  | none => .error .usage
  | some invocation => .ok invocation

end Meaning

end CommandLine
end WrapLint
