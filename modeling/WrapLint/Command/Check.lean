import WrapLint.Command.Outcome
import WrapLint.Files.Scan
import WrapLint.Registry
import WrapLint.Report.Data
import WrapLint.Report.Text
import WrapLint.Settings.Loader
import WrapLint.Template.Interchange

/-!
# The command `check`

**Input.**  A disk and the options of the command.

**Algorithm.**  Load the settings and let the command line override the style; build the
linters; collect the documents of all paths; lint the documents; write the report.  The first
step that fails ends the run.  The documents are linted side by side, so a run depends on the
order in which they get done (`Schedule`), but the reports stay in the order of the documents.

**Output.**  The report goes to a file if one is named, and otherwise is printed unless the
run is quiet.  The exit code tells whether there are lints.
-/

namespace WrapLint

/-- The files of a disk, as settings are loaded from them. -/
def Disk.access (disk : Disk) : FileAccess where
  workingDirectory := some disk.workingPath
  isPresent := disk.isPresent
  read := disk.read

namespace Check

/-- The settings before the command line overrides any. -/
def loadSettings (disk : Disk) (config : Option String) (noConfig : Bool) : Traced Settings :=
  if noConfig then pure .standard
  else
    match config with
    | none => Settings.load disk.access
    | some path => Settings.loadFrom disk.access path

/-- The settings with the style of the command line, if it names one. -/
def overrideStyle (style : Option Style) (settings : Settings) : Settings :=
  match style with
  | none => settings
  | some style => settings.setOption AttributesWrapper.name "style" style.keyword

/-- The linters of a run. -/
def loadLinters (disk : Disk) (options : CheckOptions) (noConfig : Bool) :
    Traced (List Linter) := do
  let settings ← loadSettings disk options.config noConfig
  Registry.linters (overrideStyle options.style settings)

/-- The documents at a path. -/
def scan (disk : Disk) (path : String) : Except Problem (List String) :=
  (Scan.files Scan.documentSuffix disk path).mapError .io

/-- The documents at all paths, in the order of the paths. -/
def scanAll (disk : Disk) (paths : List String) : Except Problem (List String) := do
  .ok (← paths.mapM (scan disk)).flatten

/-- The document in a file. -/
def loadDocument (disk : Disk) (path : String) : Except Problem Template.Document :=
  match disk.read path with
  | .error fault => .error (.unreadable path fault)
  | .ok text =>
    match Template.Document.read? text with
    | none => .error (.invalidDocument path)
    | some document => .ok document

/-- The report on one document. -/
def lintFile (disk : Disk) (linters : List Linter) (path : String) : Traced FileReport :=
  match loadDocument disk path with
  | .error problem => do
    Traced.note (.documentRefused path problem)
    .fail problem
  | .ok document => do
    let lints := lintDocument linters document
    Traced.note (.documentLinted path document.lineCount lints.length)
    pure ⟨path, lints⟩

/-- The order in which documents, each with its place among them, get done.  It is left open,
but each document is done once. -/
structure Schedule where
  order : List (String × Nat) → List (String × Nat)
  perm : ∀ tasks, (order tasks).Perm tasks

/-- One document after another. -/
def Schedule.inOrder : Schedule :=
  ⟨id, fun _ => .refl _⟩

/-- Results in the order of their places. -/
def inPlace (done : List (FileReport × Nat)) : List FileReport :=
  (done.mergeSort (fun x y => x.2 ≤ y.2)).map Prod.fst

/-- The reports on these documents, in their order.  Of the documents that are refused, the first
to get done ends the run; what is still being linted then is left out of the notes. -/
def lintAll (schedule : Schedule) (disk : Disk) (linters : List Linter) (files : List String) :
    Traced (List FileReport) := do
  let done ← (schedule.order files.zipIdx).mapM fun task => do
    let report ← lintFile disk linters task.1
    pure (report, task.2)
  pure (inPlace done)

/-- The reports of a run, one for each document. -/
def reports (schedule : Schedule) (disk : Disk) (options : CheckOptions) (noConfig : Bool) :
    Traced (List FileReport) := do
  let linters ← loadLinters disk options noConfig
  let files ← Traced.ofExcept (scanAll disk options.paths)
  Traced.note (.documentsFound files.length)
  lintAll schedule disk linters files

/-- Reports in the form that is asked for. -/
def render (format : ReportFormat) (coloured : Bool) (reports : List FileReport) : String :=
  match format with
  | .text => Report.text coloured reports
  | .json => Report.json reports

/-- The exit code that goes with reports. -/
def exitCode (reports : List FileReport) : Nat :=
  if reports.all FileReport.isClean then Outcome.success else Outcome.lintsFound

/-- What is printed and the disk after a report is written. -/
def deliver (disk : Disk) (output : Option String) (quiet : Bool) (report : String) :
    Except Problem (String × Disk) :=
  match output with
  | none => .ok (if quiet then "" else report, disk)
  | some path =>
    match disk.write path report with
    | .error fault => .error (.io fault)
    | .ok disk => .ok ("", disk)

/-- A whole run. -/
def run (schedule : Schedule) (environment : Environment) (invocation : Invocation)
    (options : CheckOptions) (disk : Disk) : Outcome :=
  let traced := reports schedule disk options invocation.noConfig
  match traced.outcome with
  | .error problem => .failed disk traced.notes problem
  | .ok found =>
    let coloured := invocation.color.isColoured environment.noColor environment.terminal
    match deliver disk options.output invocation.quiet (render options.format coloured found) with
    | .error problem => .failed disk traced.notes problem
    | .ok (stdout, disk) => ⟨exitCode found, stdout, "", traced.notes, disk⟩

end Check
end WrapLint
