import WrapLint.Log
import WrapLint.Lint.AttributesWrapper
import WrapLint.Settings.Basic

/-!
# The linters that settings ask for

**Input.**  Settings.

**Rules.**  Every section must name a linter that exists; the first that does not is the
problem, before any option is looked at.  A linter whose section is disabled does not run and
its options do not matter.  The others are built from their options.
-/

namespace WrapLint
namespace Registry

/-- The names of the linters that exist. -/
def names : List String :=
  [AttributesWrapper.name]

/-- The style that a section sets for the attribute wrapper check. -/
def style (own : Section) : Except Problem Style := do
  let word ← own.fetchString AttributesWrapper.name "style" Style.standard.keyword
  match Style.ofKeyword? word with
  | none => .error (.unknownStyle word)
  | some style => .ok style

/-- The first section that names no linter. -/
def unknownName? (settings : Settings) : Option String :=
  (settings.sections.map Prod.fst).find? (fun name => !names.contains name)

/-- The linters of these settings. -/
def linters (settings : Settings) : Traced (List Linter) :=
  match unknownName? settings with
  | some name => .fail (.unknownLinter name)
  | none => do
    let own := settings.sectionOrStandard AttributesWrapper.name
    if own.enabled then
      let style ← Traced.ofExcept (style own)
      pure [AttributesWrapper.linter style]
    else
      Traced.note (.linterDisabled AttributesWrapper.name)
      pure []

end Registry
end WrapLint
