import WrapLint.Command.Outcome
import WrapLint.Registry
import WrapLint.Settings.Decode

/-!
# The command `config validate`

Reads a settings file and builds its linters, and says how many there are.
-/

namespace WrapLint
namespace Validate

/-- The settings in a file that is expected to be there. -/
def loadSettings (disk : Disk) (path : String) : Except Problem Settings :=
  if !disk.isPresent path then .error (.settings s!"Configuration file not found: {path}")
  else
    match disk.read path with
    | .error fault => .error (.io fault)
    | .ok text =>
      match Settings.read? text with
      | none => .error .invalidToml
      | some settings => .ok settings

/-- The number of linters that the settings in a file enable. -/
def enabledCount (disk : Disk) (path : String) : Traced Nat := do
  let settings ← Traced.ofExcept (loadSettings disk path)
  let linters ← Registry.linters settings
  pure linters.length

/-- A whole run. -/
def run (path : String) (disk : Disk) : Outcome :=
  let traced := enabledCount disk path
  match traced.outcome with
  | .error problem => .failed disk traced.notes problem
  | .ok count =>
    ⟨Outcome.success, s!"Configuration is valid: {path} ({count} linter(s) enabled)\n", "",
      traced.notes, disk⟩

end Validate
end WrapLint
