import WrapLint.CommandLine.Basic
import WrapLint.Files.Disk

/-!
# The outcome of a run

**Contents.**  What a run leaves behind: the exit code, what it printed, the notes it took and
the disk.
-/

namespace WrapLint

/-- What a run leaves behind. -/
structure Outcome where
  exitCode : Nat
  stdout : String
  stderr : String
  notes : List Note
  disk : Disk

namespace Outcome

/-- The exit code of a run that found nothing wrong. -/
def success : Nat := 0

/-- The exit code of a run that found lints. -/
def lintsFound : Nat := 1

/-- The exit code of a run that could not do its work. -/
def failure : Nat := 2

/-- The outcome of a run that failed.  It printed nothing and changed nothing. -/
def failed (disk : Disk) (notes : List Note) (problem : Problem) : Outcome :=
  ⟨failure, "", problem.report, notes, disk⟩

end Outcome

/-- The parts of the environment that a run looks at. -/
structure Environment where
  /-- Whether colours are asked not to be used. -/
  noColor : Bool
  /-- Whether the output goes to a terminal. -/
  terminal : Bool

end WrapLint
