import WrapLint.Proofs.Command.Schedule
import WrapLint.Proofs.Files.Writing
import WrapLint.Proofs.Settings.Loader
import WrapLint.Proofs.Template.Interchange

/-!
# How a run of `check` ends

A run loads the settings, builds the linters, scans the paths, lints the documents and writes the
report.  Every step may fail on its own, and nothing is written or printed before the last one.

**Results.**
* `loadDocument_eq_ok_iff`, `loadDocument_eq_error_iff`: what is loaded from a file, and why nothing
  is.
* `outcome_loadLinters_eq_ok_iff`: the linters of a run, from the text of its settings file.
* `outcome_reports_eq_ok_iff`: the reports of a run, said document by document (`Finds`).
* `exists_outcome_reports_eq_error_iff`: there are none iff some step fails (`Stops`).
* `run_ends`: the exit code, the output and the disk of a run.
-/

namespace WrapLint
namespace Check

section Specification

/-- A file holds this document. -/
def HoldsDocument (disk : Disk) (file : String) (document : Template.Document) : Prop :=
  ∃ text, disk.read file = .ok text ∧ Template.Document.read? text = some document

/-- A file holds no document, for this reason. -/
inductive Refused (disk : Disk) (file : String) : Problem → Prop where
  | unreadable {fault : FileFault} (hread : disk.read file = .error fault) :
      Refused disk file (.unreadable file fault)
  | invalid {text : String} (hread : disk.read file = .ok text)
      (hdocument : Template.Document.read? text = none) : Refused disk file (.invalidDocument file)

variable (disk : Disk) (options : CheckOptions) (noConfig : Bool)

/-- The path of the settings file of a run, if it has one: the path that is named, or else that of
the local settings file if it leads to something. -/
def settingsPath? : Option String :=
  if noConfig then none
  else
    match options.config with
    | some path => some path
    | none =>
      let path := Path.join disk.workingPath Settings.localName
      if disk.isPresent path then some path else none

/-- The settings before the command line names a style: those that the settings file writes, or the
standard ones if there is none. -/
def Loads (settings : Settings) : Prop :=
  match settingsPath? disk options noConfig with
  | none => settings = .standard
  | some path => ∃ text, disk.read path = .ok text ∧ Settings.read? text = some settings

/-- The settings of a run, with the style of the command line. -/
def Configures (settings : Settings) : Prop :=
  match options.style with
  | none => Loads disk options noConfig settings
  | some style =>
    ∃ loaded, Loads disk options noConfig loaded ∧
      settings = loaded.setOption AttributesWrapper.name "style" style.keyword

/-- A document that the scan of some path finds. -/
def Scanned (file : String) : Prop :=
  ∃ path ∈ options.paths, ∃ files, Scan.files Scan.documentSuffix disk path = .ok files ∧
    file ∈ files

/-- A step of a run fails before there is a report to write. -/
inductive Stops : Prop where
  /-- The settings file cannot be read. -/
  | settings {path : String} {fault : FileFault}
      (hpath : settingsPath? disk options noConfig = some path)
      (hread : disk.read path = .error fault) : Stops
  /-- The settings file holds no settings. -/
  | toml {path text : String} (hpath : settingsPath? disk options noConfig = some path)
      (hread : disk.read path = .ok text) (hsettings : Settings.read? text = none) : Stops
  /-- The linters that the settings ask for cannot be built. -/
  | linters {settings : Settings} {problem : Problem}
      (hsettings : Configures disk options noConfig settings)
      (hbuild : (Registry.linters settings).outcome = .error problem) : Stops
  /-- A path cannot be scanned. -/
  | path {path : String} {fault : FileFault} (hpath : path ∈ options.paths)
      (hscan : Scan.files Scan.documentSuffix disk path = .error fault) : Stops
  /-- A document that is found cannot be loaded. -/
  | document {file : String} {problem : Problem} (hscanned : Scanned disk options file)
      (hrefused : Refused disk file problem) : Stops

/-- The reports of a run in which no step fails: one for each document that the scans of the
paths find, in the order of the paths and of each scan, with what the linters find in it. -/
def Finds (found : List FileReport) : Prop :=
  ∃ settings linters scanned,
    Configures disk options noConfig settings ∧
      (Registry.linters settings).outcome = .ok linters ∧
      List.Forall₂ (fun path files => Scan.files Scan.documentSuffix disk path = .ok files)
        options.paths scanned ∧
      List.Forall₂ (fun file report => ∃ document, HoldsDocument disk file document ∧
        report = ⟨file, lintDocument linters document⟩) scanned.flatten found

/-- The text of a report in the form that a run is asked for. -/
def reportText (environment : Environment) (invocation : Invocation) (found : List FileReport) :
    String :=
  match options.format with
  | .text =>
    Report.text (invocation.color.isColoured environment.noColor environment.terminal) found
  | .json => Report.json found

/-- A step of a run fails: one before the report is written, or the writing of it. -/
def Fails (environment : Environment) (invocation : Invocation) : Prop :=
  Stops disk options invocation.noConfig ∨
    ∃ found path fault, Finds disk options invocation.noConfig found ∧
      options.output = some path ∧
      disk.write path (reportText options environment invocation found) = .error fault

/-- Where the text of a report is once it is delivered: in the file at the path of the output,
the only place that is touched, or on the standard output unless the run is quiet. -/
def Delivered (quiet : Bool) (text : String) (outcome : Outcome) : Prop :=
  match options.output with
  | none => outcome.disk = disk ∧ outcome.stdout = if quiet then "" else text
  | some path =>
    outcome.stdout = "" ∧ outcome.disk.read path = .ok text ∧
      ∃ place, disk.writePlace path = .ok place ∧
        outcome.disk.at? place = some (.file (.text text)) ∧
        ∀ names, names ≠ place →
          (outcome.disk.at? names).map Entry.content? = (disk.at? names).map Entry.content?

end Specification

section Steps

variable {disk : Disk} {options : CheckOptions} {noConfig : Bool}

theorem loadDocument_eq_ok_iff {file : String} {document : Template.Document} :
    loadDocument disk file = .ok document ↔ HoldsDocument disk file document := by
  unfold loadDocument HoldsDocument
  cases disk.read file with
  | error fault => simp
  | ok text =>
      simp only [Except.ok.injEq, exists_eq_left']
      cases Template.Document.read? text <;> simp

theorem loadDocument_eq_error_iff {file : String} {problem : Problem} :
    loadDocument disk file = .error problem ↔ Refused disk file problem := by
  unfold loadDocument
  constructor
  · intro h
    split at h
    · rename_i hread
      cases h
      exact .unreadable hread
    · rename_i hread
      split at h
      · rename_i hdocument
        cases h
        exact .invalid hread hdocument
      · cases h
  · rintro (hread | ⟨hread, hdocument⟩)
    · rw [hread]
    · simp only [hread, hdocument]

theorem scan_eq_ok_iff {path : String} {files : List String} :
    scan disk path = .ok files ↔ Scan.files Scan.documentSuffix disk path = .ok files := by
  unfold scan
  cases Scan.files Scan.documentSuffix disk path <;> simp [Except.mapError]

theorem exists_scan_eq_error_iff {path : String} :
    (∃ problem, scan disk path = .error problem) ↔
      ∃ fault, Scan.files Scan.documentSuffix disk path = .error fault := by
  unfold scan
  cases Scan.files Scan.documentSuffix disk path <;> simp [Except.mapError]

theorem render_eq_reportText (environment : Environment) (invocation : Invocation)
    (found : List FileReport) :
    render options.format (invocation.color.isColoured environment.noColor environment.terminal)
      found = reportText options environment invocation found := by
  unfold render reportText
  cases options.format <;> rfl

theorem outcome_loadSettings :
    (loadSettings disk options.config noConfig).outcome =
      match settingsPath? disk options noConfig with
      | none => .ok .standard
      | some path =>
        match disk.read path with
        | .error fault => .error (.unreadable path fault)
        | .ok text => Settings.ofText text := by
  unfold loadSettings settingsPath?
  cases noConfig with
  | true => rfl
  | false =>
      cases options.config with
      | some path => exact Settings.outcome_loadFrom disk.access path
      | none =>
          simp only [Bool.false_eq_true, if_false]
          cases hpresent : disk.isPresent (Path.join disk.workingPath Settings.localName) with
          | true =>
              rw [Settings.load_of_isPresent disk.access rfl hpresent]
              exact Settings.outcome_loadFrom disk.access _
          | false =>
              rw [Settings.load_of_not_isPresent disk.access rfl hpresent,
                Settings.outcome_loadStandard]
              rfl

theorem outcome_loadSettings_eq_ok_iff {settings : Settings} :
    (loadSettings disk options.config noConfig).outcome = .ok settings ↔
      Loads disk options noConfig settings := by
  rw [outcome_loadSettings, Loads]
  cases settingsPath? disk options noConfig with
  | none => simp [eq_comm]
  | some path =>
      cases hread : disk.read path with
      | error fault => simp [hread]
      | ok text =>
          simp only [Settings.ofText]
          cases hsettings : Settings.read? text <;> simp [hread, hsettings]

theorem exists_outcome_loadSettings_eq_error_iff :
    (∃ problem, (loadSettings disk options.config noConfig).outcome = .error problem) ↔
      ∃ path, settingsPath? disk options noConfig = some path ∧
        ((∃ fault, disk.read path = .error fault) ∨
          ∃ text, disk.read path = .ok text ∧ Settings.read? text = none) := by
  rw [outcome_loadSettings]
  cases settingsPath? disk options noConfig with
  | none => simp
  | some path =>
      cases hread : disk.read path with
      | error fault => simp [hread]
      | ok text =>
          simp only [Settings.ofText]
          cases hsettings : Settings.read? text <;> simp [hread, hsettings]

theorem configures_iff {settings : Settings} :
    Configures disk options noConfig settings ↔
      ∃ loaded, (loadSettings disk options.config noConfig).outcome = .ok loaded ∧
        overrideStyle options.style loaded = settings := by
  simp only [outcome_loadSettings_eq_ok_iff, Configures, overrideStyle]
  cases options.style <;> simp [eq_comm]

theorem outcome_loadLinters_eq_ok_iff {linters : List Linter} :
    (loadLinters disk options noConfig).outcome = .ok linters ↔
      ∃ settings, Configures disk options noConfig settings ∧
        (Registry.linters settings).outcome = .ok linters := by
  simp only [configures_iff]
  rw [loadLinters, Traced.outcome_bind]
  cases (loadSettings disk options.config noConfig).outcome <;> simp [Except.bind]

theorem exists_outcome_loadLinters_eq_error_iff :
    (∃ problem, (loadLinters disk options noConfig).outcome = .error problem) ↔
      (∃ problem, (loadSettings disk options.config noConfig).outcome = .error problem) ∨
        ∃ settings problem, Configures disk options noConfig settings ∧
          (Registry.linters settings).outcome = .error problem := by
  simp only [configures_iff]
  rw [loadLinters, Traced.outcome_bind]
  cases (loadSettings disk options.config noConfig).outcome <;> simp [Except.bind]

theorem scanAll_eq_ok_iff {paths files : List String} :
    scanAll disk paths = .ok files ↔
      ∃ scanned, List.Forall₂ (fun path files =>
          Scan.files Scan.documentSuffix disk path = .ok files) paths scanned ∧
        files = scanned.flatten := by
  simp only [scanAll, ← scan_eq_ok_iff, ← mapM_eq_ok_iff]
  cases paths.mapM (scan disk) <;> simp [bind, Except.bind, eq_comm]

theorem exists_scanAll_eq_error_iff {paths : List String} :
    (∃ problem, scanAll disk paths = .error problem) ↔
      ∃ path ∈ paths, ∃ fault, Scan.files Scan.documentSuffix disk path = .error fault := by
  simp only [← exists_scan_eq_error_iff]
  rw [scanAll, ← exists_mapM_eq_error_iff]
  cases paths.mapM (scan disk) <;> simp [bind, Except.bind]

/-- The documents of a run are those that the scans of its paths find. -/
theorem mem_scanAll_iff {files : List String} (hfiles : scanAll disk options.paths = .ok files)
    {file : String} : file ∈ files ↔ Scanned disk options file := by
  obtain ⟨scanned, hscanned, rfl⟩ := scanAll_eq_ok_iff.1 hfiles
  constructor
  · intro hfile
    obtain ⟨inner, hinner, hmem⟩ := List.mem_flatten.1 hfile
    obtain ⟨path, hpath, hscan⟩ := exists_mem_left_of_forall₂ hscanned hinner
    exact ⟨path, hpath, inner, hscan, hmem⟩
  · rintro ⟨path, hpath, inner, hscan, hmem⟩
    obtain ⟨other, hother, hsame⟩ := exists_mem_right_of_forall₂ hscanned hpath
    rw [hscan, Except.ok.injEq] at hsame
    exact List.mem_flatten_of_mem hother (hsame ▸ hmem)

theorem outcome_lintFile (linters : List Linter) (file : String) :
    (lintFile disk linters file).outcome =
      (loadDocument disk file).map (fun document => ⟨file, lintDocument linters document⟩) := by
  unfold lintFile
  cases loadDocument disk file <;> rfl

theorem outcome_lintFile_eq_ok_iff {linters : List Linter} {file : String} {report : FileReport} :
    (lintFile disk linters file).outcome = .ok report ↔
      ∃ document, HoldsDocument disk file document ∧
        report = ⟨file, lintDocument linters document⟩ := by
  simp only [outcome_lintFile, map_eq_ok_iff, loadDocument_eq_ok_iff, @eq_comm _ report]

theorem outcome_lintFile_eq_error_iff {linters : List Linter} {file : String} {problem : Problem} :
    (lintFile disk linters file).outcome = .error problem ↔ Refused disk file problem := by
  rw [outcome_lintFile, map_eq_error_iff, loadDocument_eq_error_iff]

end Steps

section Reports

variable {schedule : Schedule} {disk : Disk} {options : CheckOptions} {noConfig : Bool}

theorem outcome_reports :
    (reports schedule disk options noConfig).outcome =
      (loadLinters disk options noConfig).outcome.bind fun linters =>
        (scanAll disk options.paths).bind fun files =>
          (lintAll schedule disk linters files).outcome := by
  simp only [reports, Traced.outcome_bind, Traced.outcome_ofExcept, Traced.outcome_note,
    Except.bind]

theorem finds_iff_exists {found : List FileReport} :
    Finds disk options noConfig found ↔
      ∃ linters files, (loadLinters disk options noConfig).outcome = .ok linters ∧
        scanAll disk options.paths = .ok files ∧
        List.Forall₂ (fun file report => (lintFile disk linters file).outcome = .ok report)
          files found := by
  simp only [outcome_loadLinters_eq_ok_iff, scanAll_eq_ok_iff, outcome_lintFile_eq_ok_iff]
  constructor
  · rintro ⟨settings, linters, scanned, hsettings, hbuild, hscanned, hfound⟩
    exact ⟨linters, _, ⟨settings, hsettings, hbuild⟩, ⟨scanned, hscanned, rfl⟩, hfound⟩
  · rintro ⟨linters, _, ⟨settings, hsettings, hbuild⟩, ⟨scanned, hscanned, rfl⟩, hfound⟩
    exact ⟨settings, linters, scanned, hsettings, hbuild, hscanned, hfound⟩

/-- The reports of a run do not depend on the schedule. -/
theorem outcome_reports_eq_ok_iff {found : List FileReport} :
    (reports schedule disk options noConfig).outcome = .ok found ↔
      Finds disk options noConfig found := by
  simp only [outcome_reports, finds_iff_exists, ← @outcome_lintAll_eq_ok_iff _ _ _ schedule]
  cases (loadLinters disk options noConfig).outcome with
  | error problem => simp [Except.bind]
  | ok linters => cases scanAll disk options.paths <;> simp [Except.bind]

theorem exists_outcome_reports_eq_error_iff_or :
    (∃ problem, (reports schedule disk options noConfig).outcome = .error problem) ↔
      (∃ problem, (loadLinters disk options noConfig).outcome = .error problem) ∨
        (∃ problem, scanAll disk options.paths = .error problem) ∨
          ∃ file, Scanned disk options file ∧ ∃ problem, Refused disk file problem := by
  rw [outcome_reports]
  cases hlinters : (loadLinters disk options noConfig).outcome with
  | error problem => simp [Except.bind]
  | ok linters =>
      cases hfiles : scanAll disk options.paths with
      | error problem => simp [Except.bind]
      | ok files =>
          simp only [Except.bind, exists_outcome_lintAll_eq_error_iff,
            outcome_lintFile_eq_error_iff, mem_scanAll_iff hfiles]
          simp

theorem stops_iff :
    Stops disk options noConfig ↔
      (∃ problem, (loadLinters disk options noConfig).outcome = .error problem) ∨
        (∃ problem, scanAll disk options.paths = .error problem) ∨
          ∃ file, Scanned disk options file ∧ ∃ problem, Refused disk file problem := by
  rw [exists_outcome_loadLinters_eq_error_iff, exists_outcome_loadSettings_eq_error_iff,
    exists_scanAll_eq_error_iff]
  constructor
  · rintro (⟨hpath, hread⟩ | ⟨hpath, hread, hsettings⟩ | ⟨hsettings, hbuild⟩ | ⟨hpath, hscan⟩ |
      ⟨hscanned, hrefused⟩)
    · exact .inl (.inl ⟨_, hpath, .inl ⟨_, hread⟩⟩)
    · exact .inl (.inl ⟨_, hpath, .inr ⟨_, hread, hsettings⟩⟩)
    · exact .inl (.inr ⟨_, _, hsettings, hbuild⟩)
    · exact .inr (.inl ⟨_, hpath, _, hscan⟩)
    · exact .inr (.inr ⟨_, hscanned, _, hrefused⟩)
  · rintro ((⟨path, hpath, ⟨fault, hread⟩ | ⟨text, hread, hsettings⟩⟩ |
      ⟨settings, problem, hsettings, hbuild⟩) | ⟨path, hpath, fault, hscan⟩ |
      ⟨file, hscanned, problem, hrefused⟩)
    · exact .settings hpath hread
    · exact .toml hpath hread hsettings
    · exact .linters hsettings hbuild
    · exact .path hpath hscan
    · exact .document hscanned hrefused

/-- A run has no reports iff one of its steps fails, whatever the schedule. -/
theorem exists_outcome_reports_eq_error_iff :
    (∃ problem, (reports schedule disk options noConfig).outcome = .error problem) ↔
      Stops disk options noConfig := by
  rw [exists_outcome_reports_eq_error_iff_or, stops_iff]

/-- What a run needs before it has reports does not fail if the run has reports. -/
theorem not_stops_of_finds {found : List FileReport} (h : Finds disk options noConfig found) :
    ¬ Stops disk options noConfig := by
  rw [← @exists_outcome_reports_eq_error_iff .inOrder, exists_eq_error_iff, not_not]
  exact ⟨found, outcome_reports_eq_ok_iff.2 h⟩

theorem Refused.unique {file : String} {problem other : Problem}
    (h : Refused disk file problem) (hother : Refused disk file other) : problem = other := by
  rw [← loadDocument_eq_error_iff] at h hother
  rw [h, Except.error.injEq] at hother
  exact hother

theorem Finds.unique {found other : List FileReport} (h : Finds disk options noConfig found)
    (hother : Finds disk options noConfig other) : found = other := by
  rw [← @outcome_reports_eq_ok_iff .inOrder] at h hother
  rw [h, Except.ok.injEq] at hother
  exact hother

end Reports

section Run

variable (schedule : Schedule) (environment : Environment) (invocation : Invocation)
  (options : CheckOptions) (disk : Disk)

theorem all_isClean_iff (found : List FileReport) :
    found.all FileReport.isClean = true ↔ ∀ report ∈ found, report.lints = [] := by
  simp [FileReport.isClean]

theorem exitCode_eq (found : List FileReport) :
    (exitCode found = Outcome.lintsFound ↔ ∃ report ∈ found, report.lints ≠ []) ∧
      (exitCode found = Outcome.success ↔ ∀ report ∈ found, report.lints = []) := by
  unfold exitCode
  by_cases hclean : found.all FileReport.isClean = true
  · have hall := (all_isClean_iff found).1 hclean
    rw [if_pos hclean]
    refine ⟨iff_of_false (by decide) ?_, iff_of_true rfl hall⟩
    rintro ⟨report, hreport, hlints⟩
    exact hlints (hall report hreport)
  · have hnot : ¬ ∀ report ∈ found, report.lints = [] := fun hall =>
      hclean ((all_isClean_iff found).2 hall)
    rw [if_neg hclean]
    refine ⟨iff_of_true rfl ?_, iff_of_false (by decide) hnot⟩
    by_contra hnone
    exact hnot fun report hreport => by_contra fun hlints => hnone ⟨report, hreport, hlints⟩

theorem exitCode_ne_failure (found : List FileReport) : exitCode found ≠ Outcome.failure := by
  unfold exitCode
  split <;> decide

theorem run_of_error {problem : Problem}
    (h : (reports schedule disk options invocation.noConfig).outcome = .error problem) :
    run schedule environment invocation options disk =
      .failed disk (reports schedule disk options invocation.noConfig).notes problem := by
  simp only [run, h]

theorem run_of_deliver_error {found : List FileReport} {problem : Problem}
    (h : (reports schedule disk options invocation.noConfig).outcome = .ok found)
    (hdeliver : deliver disk options.output invocation.quiet
      (reportText options environment invocation found) = .error problem) :
    run schedule environment invocation options disk =
      .failed disk (reports schedule disk options invocation.noConfig).notes problem := by
  simp only [run, h, render_eq_reportText, hdeliver]

theorem run_of_deliver_ok {found : List FileReport} {stdout : String} {after : Disk}
    (h : (reports schedule disk options invocation.noConfig).outcome = .ok found)
    (hdeliver : deliver disk options.output invocation.quiet
      (reportText options environment invocation found) = .ok (stdout, after)) :
    run schedule environment invocation options disk =
      ⟨exitCode found, stdout, "", (reports schedule disk options invocation.noConfig).notes,
        after⟩ := by
  simp only [run, h, render_eq_reportText, hdeliver]

theorem exists_write_eq_error_of_deliver {output : Option String} {quiet : Bool} {text : String}
    {problem : Problem} (h : deliver disk output quiet text = .error problem) :
    ∃ path fault, output = some path ∧ disk.write path text = .error fault := by
  unfold deliver at h
  split at h
  · cases h
  · rename_i path
    split at h
    · rename_i fault hwrite
      exact ⟨path, fault, rfl, hwrite⟩
    · cases h

theorem delivered_of_deliver {quiet : Bool} {text stdout : String} {after : Disk} {code : Nat}
    {notes : List Note} (h : deliver disk options.output quiet text = .ok (stdout, after)) :
    Delivered disk options quiet text ⟨code, stdout, "", notes, after⟩ := by
  unfold Delivered
  cases hpath : options.output with
  | none =>
      simp only [hpath, deliver, Except.ok.injEq, Prod.mk.injEq] at h
      exact ⟨h.2.symm, h.1.symm⟩
  | some path =>
      simp only [hpath, deliver] at h
      cases hwrite : disk.write path text with
      | error fault =>
          rw [hwrite] at h
          cases h
      | ok written =>
          rw [hwrite] at h
          cases h
          have hwrote := Disk.wrote_of_write hwrite
          exact ⟨rfl, hwrote.read, hwrote.place⟩

/-- How a run ends, whatever the schedule.  If a step fails, the exit code is that of a failure,
nothing is printed and the disk is what it was.  Otherwise there are reports on all documents, the
exit code says whether one of them has a lint, and the text of the report is delivered. -/
theorem run_ends :
    ((run schedule environment invocation options disk).exitCode = Outcome.failure ↔
        Fails disk options environment invocation) ∧
      (Fails disk options environment invocation ∧
          (run schedule environment invocation options disk).stdout = "" ∧
          (run schedule environment invocation options disk).disk = disk ∨
        ¬ Fails disk options environment invocation ∧
          ∃ found, Finds disk options invocation.noConfig found ∧
          ((run schedule environment invocation options disk).exitCode = Outcome.lintsFound ↔
            ∃ report ∈ found, report.lints ≠ []) ∧
          ((run schedule environment invocation options disk).exitCode = Outcome.success ↔
            ∀ report ∈ found, report.lints = []) ∧
          Delivered disk options invocation.quiet (reportText options environment invocation found)
            (run schedule environment invocation options disk)) := by
  cases hreports : (reports schedule disk options invocation.noConfig).outcome with
  | error problem =>
      have hfails : Fails disk options environment invocation :=
        .inl (exists_outcome_reports_eq_error_iff.1 ⟨problem, hreports⟩)
      rw [run_of_error schedule environment invocation options disk hreports]
      exact ⟨iff_of_true rfl hfails, .inl ⟨hfails, rfl, rfl⟩⟩
  | ok found =>
      have hfinds := outcome_reports_eq_ok_iff.1 hreports
      cases hdeliver : deliver disk options.output invocation.quiet
          (reportText options environment invocation found) with
      | error problem =>
          obtain ⟨path, fault, hpath, hwrite⟩ := exists_write_eq_error_of_deliver disk hdeliver
          have hfails : Fails disk options environment invocation :=
            .inr ⟨found, path, fault, hfinds, hpath, hwrite⟩
          rw [run_of_deliver_error schedule environment invocation options disk hreports hdeliver]
          exact ⟨iff_of_true rfl hfails, .inl ⟨hfails, rfl, rfl⟩⟩
      | ok delivered =>
          obtain ⟨stdout, after⟩ := delivered
          have hnot : ¬ Fails disk options environment invocation := by
            rintro (hstops | ⟨other, path, fault, hother, hpath, hwrite⟩)
            · exact not_stops_of_finds hfinds hstops
            · rw [hother.unique hfinds] at hwrite
              simp [deliver, hpath, hwrite] at hdeliver
          obtain ⟨hlints, hsuccess⟩ := exitCode_eq found
          rw [run_of_deliver_ok schedule environment invocation options disk hreports hdeliver]
          exact ⟨iff_of_false (exitCode_ne_failure found) hnot,
            .inr ⟨hnot, found, hfinds, hlints, hsuccess,
              delivered_of_deliver options disk hdeliver⟩⟩

end Run

section OneDocument

/-- A tree with nothing in it. -/
def bareTree : Template.Node :=
  .other ⟨1, none⟩ []

/-- A working directory with one document, whose attributes stand in round brackets. -/
def oneDocument : Disk :=
  ⟨.directory [("d.slim.json",
    .file (.text (Json.compact (Template.Document.encode "p(a=1)" bareTree))))], []⟩

theorem holdsDocument_of_read {disk : Disk} {path : String}
    (hfile : disk.read path
      = .ok (Json.compact (Template.Document.encode "p(a=1)" bareTree))) :
    HoldsDocument disk path (.ofSource "p(a=1)" bareTree) := by
  have hfits : bareTree.Fits := by
    simp [bareTree, Template.Node.Fits, Template.Node.AllFit, Template.Position.Fits, UInt64.size]
  have hdepth : (Template.Document.encode "p(a=1)" bareTree).depth ≤ Template.depthLimit := by
    decide
  refine ⟨_, hfile, ?_⟩
  rw [Template.Document.read?, Json.read?_compact (Template.Document.plain_encode _ hfits).kept,
    Option.bind_eq_bind, Option.bind_some, Template.Document.decode?_encode hfits hdepth]

/-- A run with one linter, which finds one lint in one document. -/
theorem finds_one_lint {disk : Disk} {options : CheckOptions} {noConfig : Bool}
    {linter : Linter} {path : String} {document : Template.Document} {lint : Lint}
    (hlinters : (loadLinters disk options noConfig).outcome = .ok [linter])
    (hscan : scanAll disk options.paths = .ok [path])
    (hdocument : HoldsDocument disk path document) (hlint : linter.run document = [lint]) :
    Finds disk options noConfig [⟨path, [lint]⟩] := by
  have hlints : lintDocument [linter] document = [lint] := by simp [lintDocument, hlint]
  have hreport : (lintFile disk [linter] path).outcome = .ok ⟨path, [lint]⟩ :=
    outcome_lintFile_eq_ok_iff.2 ⟨document, hdocument, by rw [hlints]⟩
  rw [finds_iff_exists]
  exact ⟨[linter], [path], hlinters, hscan, .cons hreport .nil⟩

/-- One lint, first printed and then written to a file. -/
theorem run_ends_one_lint :
    let options (output : Option String) : CheckOptions :=
      ⟨["d.slim.json"], none, none, .text, output⟩
    let outcome (output : Option String) : Outcome :=
      run .inOrder ⟨false, false⟩ ⟨0, false, .auto, false, .check (options output)⟩
        (options output) oneDocument
    let report := "d.slim.json:1 [AttributesWrapper] "
      ++ "Should not have any attribute wrapper characters\n\n"
      ++ "Summary: 1 file(s) checked, 1 lint(s) in 1 file(s)\n"
    (outcome none).exitCode = 1 ∧ (outcome none).stdout = report ∧
      (outcome none).disk = oneDocument ∧ (outcome (some "r.txt")).exitCode = 1 ∧
      (outcome (some "r.txt")).stdout = "" ∧
      (outcome (some "r.txt")).disk.read "r.txt" = .ok report := by
  intro options outcome report
  have hlinters (output : Option String) : (loadLinters oneDocument (options output) false).outcome
      = .ok [AttributesWrapper.linter .unwrapped] := rfl
  have hfinds (output : Option String) : Finds oneDocument (options output) false
      [⟨"d.slim.json", [⟨"AttributesWrapper", .line 1, Style.unwrapped.message⟩]⟩] :=
    finds_one_lint (hlinters output) rfl (holdsDocument_of_read rfl) rfl
  have hends (output : Option String) (hwrite : ∀ path, output = some path →
      ∀ text, ∃ after, oneDocument.write path text = .ok after) :
      (outcome output).exitCode = 1 ∧
        Delivered oneDocument (options output) false report (outcome output) := by
    obtain ⟨-, ⟨hfails, -⟩ | ⟨-, found, hfound, hlints, -, hdelivered⟩⟩ :=
      run_ends .inOrder ⟨false, false⟩ ⟨0, false, .auto, false, .check (options output)⟩
        (options output) oneDocument
    · rcases hfails with hstops | ⟨found, path, fault, -, hpath, hfault⟩
      · exact absurd hstops (not_stops_of_finds (hfinds output))
      · obtain ⟨after, hafter⟩ := hwrite path hpath _
        rw [hafter] at hfault
        cases hfault
    · obtain rfl := hfound.unique (hfinds output)
      exact ⟨hlints.2 ⟨_, List.mem_cons_self, by simp⟩, hdelivered⟩
  have hwritten : ∀ path, some "r.txt" = some path →
      ∀ text, ∃ after, oneDocument.write path text = .ok after := by
    rintro _ ⟨⟩ text
    exact ⟨_, rfl⟩
  obtain ⟨hcode, hdisk, hstdout⟩ := hends none (by simp)
  obtain ⟨hcodeWritten, hstdoutWritten, hread, -⟩ := hends (some "r.txt") hwritten
  exact ⟨hcode, hstdout, hdisk, hcodeWritten, hstdoutWritten, hread⟩

end OneDocument

end Check
end WrapLint
