/-!
# What can go wrong

**Contents.**  The causes for which a command fails, and what a user is told of each: the
category, the message and, for some, a hint.
-/

namespace WrapLint

/-- Why a file cannot be read or written. -/
inductive FileFault where
  | notFound
  /-- The file may not be touched.  A disk has no permissions, so this comes from other accesses to
  files only. -/
  | permissionDenied
  | notADirectory
  | isADirectory
  | nameTooLong
  /-- A path with a null character in it. -/
  | nullInPath
  /-- The content is no UTF-8 text. -/
  | notText
  /-- Any other reason, in words.  A disk has none; this too comes from other accesses only. -/
  | other (text : String)
  deriving DecidableEq

/-- The text of a fault. -/
def FileFault.message : FileFault → String
  | .notFound => "No such file or directory (os error 2)"
  | .permissionDenied => "Permission denied (os error 13)"
  | .notADirectory => "Not a directory (os error 20)"
  | .isADirectory => "Is a directory (os error 21)"
  | .nameTooLong => "File name too long (os error 36)"
  | .nullInPath => "file name contained an unexpected NUL byte"
  | .notText => "stream did not contain valid UTF-8"
  | .other text => text

/-- The cause of a failure. -/
inductive Problem where
  /-- Something about the settings file as a file, in words. -/
  | settings (text : String)
  | unknownStyle (word : String)
  | unknownLinter (name : String)
  /-- An option has a value of a type other than the one expected. -/
  | invalidOption (linter option expected : String)
  /-- A file that must be read cannot be read. -/
  | unreadable (path : String) (fault : FileFault)
  | invalidDocument (path : String)
  | invalidPattern (pattern : String)
  /-- Any other operation on files fails. -/
  | io (fault : FileFault)
  | invalidToml
  | unserializable
  deriving DecidableEq

namespace Problem

/-- The part of the program that a problem belongs to. -/
def category : Problem → String
  | .settings _ | .unknownStyle _ | .unknownLinter _ | .invalidOption .. | .invalidToml => "Config"
  | .unreadable .. | .io _ => "IO"
  | .invalidDocument _ | .unserializable => "Document"
  | .invalidPattern _ => "Pattern"

/-- What is said of a problem first. -/
def summary : Problem → String
  | .settings text => s!"Configuration error: {text}"
  | .unknownStyle word =>
    s!"Unknown attribute wrapper style '{word}' (expected one of: none, round, curly, square, any)"
  | .unknownLinter name => s!"Unknown linter '{name}'"
  | .invalidOption linter option expected =>
    s!"Invalid type for option '{linter}.{option}': expected {expected}"
  | .unreadable path _ => s!"Failed to read file: {path}"
  | .invalidDocument path => s!"Invalid document {path}"
  | .invalidPattern pattern => s!"Invalid pattern: {pattern}"
  | .io fault => s!"IO error: {fault.message}"
  | .invalidToml => "TOML parse error"
  | .unserializable => "JSON serialization error"

/-- What the reader of a format adds to the summary. -/
def detail? : Problem → Option String
  | .invalidDocument _ => some "not a template document"
  | .invalidToml => some "not a settings document"
  | .unserializable => some "no text for this value"
  | _ => none

/-- The message of a problem when its detail is worded as given. -/
def messageWith (detail? : Option String) (problem : Problem) : String :=
  match detail? with
  | none => problem.summary
  | some detail => s!"{problem.summary}: {detail}"

/-- The message of a problem. -/
def message (problem : Problem) : String :=
  problem.messageWith problem.detail?

/-- What a user may do about a problem. -/
def hint? : Problem → Option String
  | .unknownStyle _ => some "Set `style` to one of: none, round, curly, square, any"
  | .unknownLinter _ => some "Run `wrap-guard config validate` to check linter names"
  | .invalidOption .. | .settings _ | .invalidToml =>
    some "Check the config file format in .wrap-guard.toml"
  | .unreadable _ .notFound => some "Check that the file path exists"
  | .unreadable _ .permissionDenied => some "Check file permissions"
  | .invalidDocument _ => some "Documents must be JSON objects with `source` and `root` fields"
  | .unreadable .. | .invalidPattern _ | .io _ | .unserializable => none

/-- What is written to the error stream for a problem. -/
def report (problem : Problem) : String :=
  let headline := s!"Error [{problem.category}]: {problem.message}\n"
  match problem.hint? with
  | none => headline
  | some hint => headline ++ s!"  Hint: {hint}\n"

end Problem
end WrapLint
