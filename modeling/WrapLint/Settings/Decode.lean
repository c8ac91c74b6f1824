import WrapLint.Settings.Basic
import WrapLint.Toml.Reader

/-!
# Settings files

**Input.**  A TOML document.

**Rules.**  The only key is `linters`, and it holds a table of sections.  In a section
`enabled` is a boolean, true if it is left out, and every other entry is an option.

**Date-times and tables.**  A date-time may be written as a table whose only entry is its text
under `datetimeKey`.  A date-time in the place of a section is taken as that table.  In the
value of an option, at any depth, a table that begins with this key is taken as the date-time,
and refused if it is none.
-/

namespace WrapLint

/-- The key under which a date-time holds its text when it is written as a table. -/
def datetimeKey : String :=
  "$__toml_private_datetime"

/-- Whether the entries are meant to be those of a date-time. -/
def beginsDatetime (entries : List (String × Toml.Value)) : Bool :=
  entries.head?.any (fun entry => entry.1 == datetimeKey)

/-- The date-time with these entries. -/
def datetimeOfEntries? : List (String × Toml.Value) → Option Toml.Value
  | [(_, .string text)] => (Toml.datetime? text.toList).map .datetime
  | _ => none

mutual

/-- The value of an option.  Tables that stand for date-times are taken as these. -/
def optionValue? : Toml.Value → Option Toml.Value
  | .array items => (optionItems? items).map .array
  | .table entries =>
    if beginsDatetime entries then datetimeOfEntries? entries
    else (optionEntries? entries).map .table
  | value => some value

/-- `optionValue?` for every item of an array. -/
def optionItems? : List Toml.Value → Option (List Toml.Value)
  | [] => some []
  | item :: items => do
    let item ← optionValue? item
    let items ← optionItems? items
    some (item :: items)

/-- `optionValue?` for the value of every entry. -/
def optionEntries? : List (String × Toml.Value) → Option (List (String × Toml.Value))
  | [] => some []
  | (key, value) :: entries => do
    let value ← optionValue? value
    let entries ← optionEntries? entries
    some ((key, value) :: entries)

end

/-- Whether a section runs its linter, by what stands under `enabled`. -/
def decodeEnabled? : Option Toml.Value → Option Bool
  | none => some true
  | some (.boolean enabled) => some enabled
  | some _ => none

/-- The section that the entries of a table give. -/
def Section.ofEntries? (entries : List (String × Toml.Value)) : Option Section := do
  let enabled ← decodeEnabled? (entries.lookup "enabled")
  let options ← optionEntries? (entries.filter (fun entry => entry.1 != "enabled"))
  some ⟨enabled, options⟩

/-- The section that a value gives. -/
def Section.decode? : Toml.Value → Option Section
  | .table entries => ofEntries? entries
  | .datetime text => ofEntries? [(datetimeKey, .string text)]
  | _ => none

/-- The sections that the entries of a table give, all of them or none. -/
def Section.decodeAll? : List (String × Toml.Value) → Option (List (String × Section))
  | [] => some []
  | (name, value) :: entries => do
    let own ← Section.decode? value
    let sections ← Section.decodeAll? entries
    some ((name, own) :: sections)

/-- The settings that the entries of a document give. -/
def Settings.ofEntries? (entries : List (String × Toml.Value)) : Option Settings :=
  if entries.all (fun entry => entry.1 == "linters") then
    match entries.lookup "linters" with
    | none => some .standard
    | some (.table sections) => (Section.decodeAll? sections).map .mk
    | some _ => none
  else none

/-- The settings that a document writes. -/
def Settings.read? (text : String) : Option Settings := do
  ofEntries? (← Toml.read? text)

end WrapLint
