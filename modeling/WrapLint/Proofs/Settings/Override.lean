import Mathlib.Tactic.Common
import WrapLint.Settings.Basic

/-!
# Setting an option

Setting an option of a linter changes that option and nothing else, wherever the section and the
option were before.

**Results.**
* `lookup_setEntry`, `map_fst_setEntry`: one entry of a list with keys is set.
* `Settings.sectionOrStandard_setOption`: what is found in the settings afterwards.
* `Section.fetchString_setOption`: the text of an option that was just set.
-/

namespace WrapLint

section Entries

variable {α : Type}

theorem lookup_setEntry (key : String) (value : α) (entries : List (String × α))
    (other : String) :
    (setEntry key value entries).lookup other =
      if other = key then some value else entries.lookup other := by
  fun_induction setEntry key value entries <;> grind

/-- The keys keep their order; a key that was not there comes last. -/
theorem map_fst_setEntry (key : String) (value : α) (entries : List (String × α)) :
    (setEntry key value entries).map Prod.fst =
      if key ∈ entries.map Prod.fst then entries.map Prod.fst
      else entries.map Prod.fst ++ [key] := by
  fun_induction setEntry key value entries <;> grind

end Entries

namespace Section

@[simp] theorem enabled_setOption (own : Section) (option text : String) :
    (own.setOption option text).enabled = own.enabled :=
  rfl

/-- Whatever an option was before, once it is set it is a text. -/
theorem fetchString_setOption (own : Section) (linter option text fallback : String) :
    (own.setOption option text).fetchString linter option fallback = .ok text := by
  simp [fetchString, setOption, lookup_setEntry]

end Section

namespace Settings

theorem section?_setOption (settings : Settings) (linter option text other : String) :
    (settings.setOption linter option text).section? other =
      if other = linter then some ((settings.sectionOrStandard linter).setOption option text)
      else settings.section? other :=
  lookup_setEntry linter _ settings.sections other

@[simp] theorem sectionOrStandard_setOption (settings : Settings)
    (linter option text : String) :
    (settings.setOption linter option text).sectionOrStandard linter =
      (settings.sectionOrStandard linter).setOption option text := by
  simp [sectionOrStandard, section?_setOption]

theorem map_fst_sections_setOption (settings : Settings) (linter option text : String) :
    (settings.setOption linter option text).sections.map Prod.fst =
      if linter ∈ settings.sections.map Prod.fst then settings.sections.map Prod.fst
      else settings.sections.map Prod.fst ++ [linter] :=
  map_fst_setEntry linter _ settings.sections

end Settings
end WrapLint
