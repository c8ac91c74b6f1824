import WrapLint.Lint.Basic

/-!
# Reports

What a run has found, document by document, and the counts that sum it up.
-/

namespace WrapLint

/-- The lints of one document. -/
structure FileReport where
  path : String
  lints : List Lint
  deriving DecidableEq

/-- Whether the document has no lint. -/
def FileReport.isClean (report : FileReport) : Bool :=
  report.lints.isEmpty

/-- The forms in which reports are written. -/
inductive ReportFormat where
  | text
  | json
  deriving DecidableEq

namespace Report

/-- The number of lints. -/
def lintCount (reports : List FileReport) : Nat :=
  (reports.flatMap (fun report => report.lints)).length

/-- The number of documents with at least one lint. -/
def affectedCount (reports : List FileReport) : Nat :=
  (reports.filter (fun report => !report.isClean)).length

end Report

/-- The word for a format. -/
def ReportFormat.keyword : ReportFormat → String
  | .text => "text"
  | .json => "json"

/-- The format with this word.  The case of its ASCII letters does not count, and no other
character has the same lower case as a letter of these words. -/
def ReportFormat.ofWord? (word : String) : Option ReportFormat :=
  if word.toLower = "text" then some .text
  else if word.toLower = "json" then some .json
  else none

end WrapLint
