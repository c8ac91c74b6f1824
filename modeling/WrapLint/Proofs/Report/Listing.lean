import WrapLint.Proofs.Json.RoundTrip
import WrapLint.Report.Data

/-!
# The JSON form of reports is read back

A reader of the JSON form is defined here, apart from how it is written.  It knows the names of the
members and refuses an object in which another one stands, or one of them twice, and a column that
is `null`.  What it should find in the text is said from the reports alone.

**Results.**
* `Entry.decode?_lintValue`: a lint is read back from its object.
* `Listing.read?_json`: the text of any reports is read as the list of their lints and the counts.
-/

namespace WrapLint
namespace Report

open Json (Text member? required?)

section Reading

/-- One lint in the list of all. -/
structure Entry where
  path : String
  line : Nat
  column : Option Nat
  linter : String
  message : String
  deriving DecidableEq

/-- The counts that sum up a list. -/
structure Summary where
  files : Nat
  affected : Nat
  lints : Nat
  deriving DecidableEq

/-- All lints of some reports, in one list, and the counts. -/
structure Listing where
  summary : Summary
  entries : List Entry
  deriving DecidableEq

/-- The members of an object that has no members of other names. -/
def membersNamed? (names : List String) : Json → Option (List (Text × Json))
  | .object members =>
    if members.all (fun member => names.any (fun name => member.1 == .whole name)) then
      some members
    else none
  | _ => none

/-- A natural number of any size. -/
def count? : Json → Option Nat
  | .number (.integer false n) => some n
  | _ => none

/-- A column, which may be left out. -/
def column? : Option Json → Option (Option Nat)
  | none => some none
  | some value => (count? value).map some

/-- A lint. -/
def Entry.decode? (value : Json) : Option Entry := do
  let members ← membersNamed? ["path", "line", "column", "linter", "message"] value
  let path ← (← required? "path" members).text?
  let line ← count? (← required? "line" members)
  let column ← column? (← member? "column" members)
  let linter ← (← required? "linter" members).text?
  let message ← (← required? "message" members).text?
  some ⟨path, line, column, linter, message⟩

/-- The counts. -/
def Summary.decode? (value : Json) : Option Summary := do
  let members ← membersNamed? ["files", "files_with_lints", "lints"] value
  let files ← count? (← required? "files" members)
  let affected ← count? (← required? "files_with_lints" members)
  let lints ← count? (← required? "lints" members)
  some ⟨files, affected, lints⟩

/-- The items of an array. -/
def items? : Json → Option (List Json)
  | .array items => some items
  | _ => none

/-- The list with its counts. -/
def Listing.decode? (value : Json) : Option Listing := do
  let members ← membersNamed? ["summary", "lints"] value
  let summary ← Summary.decode? (← required? "summary" members)
  let entries ← (← items? (← required? "lints" members)).mapM Entry.decode?
  some ⟨summary, entries⟩

/-- The list that a text writes. -/
def Listing.read? (text : String) : Option Listing := do
  Listing.decode? (← Json.read? text)

end Reading

section Content

/-- What there is to tell about a lint of the document at a path.  Only the place of a node may
have a column. -/
def Entry.ofLint (path : String) (lint : Lint) : Entry :=
  match lint.location with
  | .line number => ⟨path, number, none, lint.linter, lint.message⟩
  | .node position => ⟨path, position.line, position.column, lint.linter, lint.message⟩

/-- The lints of all reports, report after report. -/
def entriesOf (reports : List FileReport) : List Entry :=
  reports.flatMap fun report => report.lints.map (Entry.ofLint report.path)

/-- What there is to tell about some reports. -/
def Listing.ofReports (reports : List FileReport) : Listing where
  summary :=
    { files := reports.length
      affected := reports.countP fun report => report.lints ≠ []
      lints := (entriesOf reports).length }
  entries := entriesOf reports

theorem affectedCount_eq_countP (reports : List FileReport) :
    affectedCount reports = reports.countP fun report => report.lints ≠ [] := by
  rw [affectedCount, ← List.countP_eq_length_filter]
  congr 1
  funext report
  cases h : report.lints <;> simp [FileReport.isClean, h]

theorem lintCount_eq_length (reports : List FileReport) :
    lintCount reports = (entriesOf reports).length := by
  simp [lintCount, entriesOf, List.length_flatMap]

end Content

section RoundTrip

theorem Entry.decode?_lintValue (path : String) (lint : Lint) :
    Entry.decode? (lintValue path lint) = some (Entry.ofLint path lint) := by
  obtain ⟨linter, location, message⟩ := lint
  cases location with
  | line number => rfl
  | node position =>
      obtain ⟨line, column⟩ := position
      cases column <;> rfl

theorem Summary.decode?_summaryValue (reports : List FileReport) :
    Summary.decode? (summaryValue reports)
      = some ⟨reports.length, affectedCount reports, lintCount reports⟩ :=
  rfl

theorem mapM_decode?_lints (path : String) (lints : List Lint) :
    (lints.map (lintValue path)).mapM Entry.decode? = some (lints.map (Entry.ofLint path)) := by
  have hone : Entry.decode? ∘ lintValue path = pure ∘ Entry.ofLint path :=
    funext (Entry.decode?_lintValue path)
  rw [List.mapM_map, hone]
  exact List.mapM_pure

theorem mapM_decode?_reports (reports : List FileReport) :
    (reports.flatMap fun report => report.lints.map (lintValue report.path)).mapM Entry.decode?
      = some (entriesOf reports) := by
  induction reports with
  | nil => rfl
  | cons report reports ih =>
      rw [List.flatMap_cons, List.mapM_append, mapM_decode?_lints, ih]
      rfl

theorem Listing.decode?_value (reports : List FileReport) :
    Listing.decode? (value reports) = some (Listing.ofReports reports) := by
  have hmembers : membersNamed? ["summary", "lints"] (value reports)
      = some [(.whole "summary", summaryValue reports), (.whole "lints", .array (reports.flatMap
          fun report => report.lints.map (lintValue report.path)))] := rfl
  have hsummary := Summary.decode?_summaryValue reports
  have hentries := mapM_decode?_reports reports
  rw [affectedCount_eq_countP, lintCount_eq_length] at hsummary
  simp [Listing.decode?, hmembers, required?, member?, items?, hsummary, hentries, ofReports]

theorem kept_lintValue (path : String) (lint : Lint) : (lintValue path lint).Kept := by
  rw [lintValue, Json.kept_ofMembers]
  cases lint.location.column <;> simp [Json.kept_ofString, Json.kept_ofNat]

theorem kept_value (reports : List FileReport) : (value reports).Kept := by
  have hsummary : (summaryValue reports).Kept := by
    rw [summaryValue, Json.kept_ofMembers]
    simp [Json.kept_ofNat]
  have hlints : (Json.array (reports.flatMap
      fun report => report.lints.map (lintValue report.path))).Kept := by
    rw [Json.kept_array]
    intro item hitem
    obtain ⟨report, -, hitem⟩ := List.mem_flatMap.1 hitem
    obtain ⟨lint, -, rfl⟩ := List.mem_map.1 hitem
    exact kept_lintValue report.path lint
  rw [value, Json.kept_ofMembers, List.forall_mem_cons, List.forall_mem_singleton]
  exact ⟨hsummary, hlints⟩

/-- The text of any reports is read as their lints, in the order of the reports, and the counts
that sum them up. -/
theorem Listing.read?_json (reports : List FileReport) :
    Listing.read? (json reports) = some (Listing.ofReports reports) := by
  rw [Listing.read?, json, Json.read?_pretty (kept_value reports)]
  exact Listing.decode?_value reports

end RoundTrip

end Report
end WrapLint
