import WrapLint.Json.Printer
import WrapLint.Report.Basic

/-!
# The JSON form of reports

**Output.**  An object with a `summary`, which holds the counts, and `lints`, one object for
each lint in the order of the reports.  A lint has a `column` only where its location has one.
-/

namespace WrapLint
namespace Report

/-- The object for one lint. -/
def lintValue (path : String) (lint : Lint) : Json :=
  let column :=
    match lint.location.column with
    | none => []
    | some column => [("column", Json.ofNat column)]
  .ofMembers ([("path", .ofString path), ("line", .ofNat lint.line)] ++ column
    ++ [("linter", .ofString lint.linter), ("message", .ofString lint.message)])

/-- The object with the counts. -/
def summaryValue (reports : List FileReport) : Json :=
  .ofMembers [("files", .ofNat reports.length),
    ("files_with_lints", .ofNat (affectedCount reports)),
    ("lints", .ofNat (lintCount reports))]

/-- The value of reports. -/
def value (reports : List FileReport) : Json :=
  .ofMembers [("summary", summaryValue reports),
    ("lints", .array (reports.flatMap
      (fun report => report.lints.map (lintValue report.path))))]

/-- The JSON form of reports. -/
def json (reports : List FileReport) : String :=
  (value reports).pretty

end Report
end WrapLint
