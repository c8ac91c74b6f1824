import WrapLint.Report.Basic

/-!
# The text form of reports

**Output.**  One line for each lint, `path:line:column [linter] message`, the column only
where there is one; then an empty line and a line that sums up.

**Colour.**  Locations, names of linters and the result may be coloured.  A colour is switched
on right before a piece of text and off right after it, so colours never nest.
-/

namespace WrapLint
namespace Report

/-- The colours of a report. -/
inductive Colour where
  | red
  | green
  | cyan

/-- The code that switches a colour on. -/
def Colour.code : Colour → String
  | .red => "\x1b[31m"
  | .green => "\x1b[32m"
  | .cyan => "\x1b[36m"

/-- The code that switches colours off. -/
def colourOff : String :=
  "\x1b[0m"

/-- A piece of text, coloured or as it is. -/
def paint (coloured : Bool) (colour : Colour) (text : String) : String :=
  if coloured then colour.code ++ text ++ colourOff else text

/-- Where a lint of a document is. -/
def locationText (path : String) (location : Location) : String :=
  let line := s!"{path}:{location.lineNumber}"
  match location.column with
  | none => line
  | some column => s!"{line}:{column}"

/-- The line for one lint. -/
def lintText (coloured : Bool) (path : String) (lint : Lint) : String :=
  paint coloured .cyan (locationText path lint.location) ++ " "
    ++ paint coloured .red s!"[{lint.linter}]" ++ " " ++ lint.message ++ "\n"

/-- The result of a run in words. -/
def resultText (coloured : Bool) (reports : List FileReport) : String :=
  if lintCount reports = 0 then paint coloured .green "no lints"
  else
    paint coloured .red s!"{lintCount reports} lint(s) in {affectedCount reports} file(s)"

/-- The text form of reports. -/
def text (coloured : Bool) (reports : List FileReport) : String :=
  let lines := reports.flatMap (fun report => report.lints.map (lintText coloured report.path))
  String.join lines
    ++ s!"\nSummary: {reports.length} file(s) checked, {resultText coloured reports}\n"

end Report
end WrapLint
