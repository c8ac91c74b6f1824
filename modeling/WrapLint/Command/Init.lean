import WrapLint.Command.Outcome

/-!
# The command `init`

Writes a settings file that asks for one style.  A file that is there already is only
overwritten by force.
-/

namespace WrapLint
namespace Init

/-- The settings file that asks for a style. -/
def template (style : Style) : String :=
  String.intercalate "\n"
    ["# wrap-guard configuration file",
      "",
      "[linters.AttributesWrapper]",
      "enabled = true",
      "",
      "# How element attributes must be wrapped:",
      "#   none   - div data-foo=\"bar\"",
      "#   round  - div(data-foo=\"bar\")",
      "#   curly  - div\x7bdata-foo=\"bar\"\x7d",
      "#   square - div[data-foo=\"bar\"]",
      "#   any    - any of round, curly or square",
      "style = \"" ++ style.keyword ++ "\"",
      ""]

/-- The disk after the settings file is written. -/
def write (options : InitOptions) (disk : Disk) : Except Problem Disk :=
  if disk.isPresent options.output ∧ ¬ options.force then
    .error (.settings
      s!"Configuration file already exists: {options.output}. Use --force to overwrite.")
  else (disk.write options.output (template options.style)).mapError .io

/-- A whole run. -/
def run (options : InitOptions) (disk : Disk) : Outcome :=
  match write options disk with
  | .error problem => .failed disk [] problem
  | .ok disk =>
    ⟨Outcome.success, s!"Created configuration file: {options.output}\n", "", [], disk⟩

end Init
end WrapLint
