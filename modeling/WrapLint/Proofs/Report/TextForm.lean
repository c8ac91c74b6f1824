import WrapLint.Proofs.Report.Listing
import WrapLint.Report.Text

/-!
# The text form says what the JSON form says

The text form is written from the reports, one after the other, and so is the JSON form.  Here the
text is written a second time, from the list that a reader of the JSON form has: a line for each
entry, and a last line from the counts.  The path of a report, which the JSON form repeats in each
entry, is all that the nesting of lints in reports was needed for.

**Results.**
* `text_ofLint`: the line for a lint is the line for its entry.
* `resultText_eq`: the result in words comes from the counts.
* `text_of_json`: the uncoloured text is what the JSON form, once read, determines.
-/

namespace WrapLint
namespace Report

section Sentences

/-- A colon and the column; nothing where there is no column. -/
def columnText : Option Nat → String
  | none => ""
  | some column => ":" ++ toString column

/-- The line for an entry. -/
def Entry.text (entry : Entry) : String :=
  entry.path ++ ":" ++ toString entry.line ++ columnText entry.column
    ++ " [" ++ entry.linter ++ "] " ++ entry.message ++ "\n"

/-- How many lints there are, in how many documents. -/
def Summary.findings (summary : Summary) : String :=
  if summary.lints = 0 then "no lints"
  else toString summary.lints ++ " lint(s) in " ++ toString summary.affected ++ " file(s)"

/-- The line that sums up. -/
def Summary.text (summary : Summary) : String :=
  "Summary: " ++ toString summary.files ++ " file(s) checked, " ++ summary.findings ++ "\n"

/-- The lines for all entries, an empty line, and the line that sums up. -/
def Listing.text (listing : Listing) : String :=
  String.join (listing.entries.map Entry.text) ++ "\n" ++ listing.summary.text

end Sentences

section Agreement

theorem toList_locationText (path : String) (location : Location) :
    (locationText path location).toList
      = path.toList ++ ':' :: (toString location.lineNumber).toList
        ++ (columnText location.column).toList := by
  rw [locationText]
  cases location.column <;> simp [columnText, toString]

/-- The line for a lint is the line for what there is to tell about it. -/
theorem text_ofLint (path : String) (lint : Lint) :
    (Entry.ofLint path lint).text = lintText false path lint := by
  have hentry : Entry.ofLint path lint
      = ⟨path, lint.location.lineNumber, lint.location.column, lint.linter, lint.message⟩ := by
    rw [Entry.ofLint]
    cases lint.location <;> rfl
  rw [← String.toList_inj, hentry, lintText, Entry.text]
  simp [paint, toList_locationText, toString]

/-- Report by report, the lines are those of one list of entries. -/
theorem map_text_entriesOf (reports : List FileReport) :
    (entriesOf reports).map Entry.text
      = reports.flatMap fun report => report.lints.map (lintText false report.path) := by
  simp only [entriesOf, List.map_flatMap, List.map_map, Function.comp_def, text_ofLint]

/-- The result in words comes from the counts alone. -/
theorem resultText_eq (reports : List FileReport) :
    resultText false reports = (Listing.ofReports reports).summary.findings := by
  rw [resultText, lintCount_eq_length, affectedCount_eq_countP]
  rfl

theorem text_ofReports (reports : List FileReport) :
    (Listing.ofReports reports).text = text false reports := by
  have hlines : (Listing.ofReports reports).entries.map Entry.text = _ :=
    map_text_entriesOf reports
  have hresult := resultText_eq reports
  rw [Listing.text, Summary.text, hlines, ← hresult, text, ← String.toList_inj]
  simp [Listing.ofReports, toString]

/-- Whoever reads the JSON form of some reports can write their uncoloured text from it. -/
theorem text_of_json (reports : List FileReport) :
    (Listing.read? (json reports)).map Listing.text = some (text false reports) := by
  rw [Listing.read?_json, Option.map_some, text_ofReports]

end Agreement

end Report
end WrapLint
