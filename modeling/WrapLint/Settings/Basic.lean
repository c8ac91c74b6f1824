import WrapLint.Problem
import WrapLint.Toml.Value

/-!
# Settings

Settings say for each linter whether it runs and with which options.

**Contents.**  The types, and the operations on them: look-up, `setOption`, and `fetchString`
for an option that must be a string.  Sections and options keep the order in which they were
first written; setting an option that is there changes its value and not its place.
-/

namespace WrapLint

/-- The entries with this value at this key: in the place of the key's entry, or at the end if
there is none. -/
def setEntry {α : Type} (key : String) (value : α) : List (String × α) → List (String × α)
  | [] => [(key, value)]
  | entry :: entries =>
    if entry.1 = key then (key, value) :: entries else entry :: setEntry key value entries

/-- What the settings say of one linter. -/
structure Section where
  enabled : Bool
  options : List (String × Toml.Value)

/-- The sections of a settings file. -/
structure Settings where
  sections : List (String × Section)

namespace Section

/-- The section of a linter that the settings do not mention: it runs, with no options. -/
def standard : Section :=
  ⟨true, []⟩

/-- The section with this text as the value of an option. -/
def setOption (option text : String) (own : Section) : Section :=
  { own with options := setEntry option (.string text) own.options }

/-- The text of an option, or `fallback` if the option is not set.  An option of another type
is a problem, which names the linter. -/
def fetchString (own : Section) (linter option fallback : String) : Except Problem String :=
  match own.options.lookup option with
  | none => .ok fallback
  | some (.string text) => .ok text
  | some _ => .error (.invalidOption linter option "string")

end Section

namespace Settings

/-- The settings with no section. -/
def standard : Settings :=
  ⟨[]⟩

/-- The section of a linter. -/
def section? (settings : Settings) (linter : String) : Option Section :=
  settings.sections.lookup linter

/-- The section of a linter, or the standard one. -/
def sectionOrStandard (settings : Settings) (linter : String) : Section :=
  (settings.section? linter).getD .standard

/-- The settings with this text as the value of an option of a linter. -/
def setOption (linter option text : String) (settings : Settings) : Settings :=
  ⟨setEntry linter ((settings.sectionOrStandard linter).setOption option text)
    settings.sections⟩

end Settings
end WrapLint
