import WrapLint.Proofs.Command.Verdict

/-!
# `check` on two lists of paths

A run of `check` on the paths of two lists does what the runs on each of them do: it fails iff one
of them fails, and otherwise its reports are those of the first list and then those of the second.
All three runs start from the same disk, and each has a schedule of its own.

**Results.**
* `finds_append_iff`: the reports on the documents of both lists.
* `runOn_append`: the exit code, the reports and the counts of a run on both lists.
-/

namespace WrapLint

namespace Report

variable (first second : List FileReport)

theorem affectedCount_append :
    affectedCount (first ++ second) = affectedCount first + affectedCount second := by
  simp [affectedCount]

theorem lintCount_append : lintCount (first ++ second) = lintCount first + lintCount second := by
  simp [lintCount]

end Report

namespace Check

section Reports

variable {disk : Disk} {options : CheckOptions} {noConfig : Bool}

/-- The options with these paths in the place of the others. -/
def onPaths (options : CheckOptions) (paths : List String) : CheckOptions :=
  { options with paths := paths }

theorem scanAll_append_eq_ok_iff {paths others files : List String} :
    scanAll disk (paths ++ others) = .ok files ↔
      ∃ front back, scanAll disk paths = .ok front ∧ scanAll disk others = .ok back ∧
        files = front ++ back := by
  simp only [scanAll_eq_ok_iff, ← mapM_eq_ok_iff, mapM_append_eq_ok_iff]
  constructor
  · rintro ⟨_, ⟨us, vs, hus, hvs, rfl⟩, rfl⟩
    exact ⟨us.flatten, vs.flatten, ⟨us, hus, rfl⟩, ⟨vs, hvs, rfl⟩, List.flatten_append⟩
  · rintro ⟨_, _, ⟨us, hus, rfl⟩, ⟨vs, hvs, rfl⟩, rfl⟩
    exact ⟨us ++ vs, ⟨us, vs, hus, hvs, rfl⟩, List.flatten_append.symm⟩

theorem loadLinters_onPaths (paths : List String) :
    loadLinters disk (onPaths options paths) noConfig = loadLinters disk options noConfig :=
  rfl

theorem finds_append_iff {paths others : List String} {found : List FileReport} :
    Finds disk (onPaths options (paths ++ others)) noConfig found ↔
      ∃ first second, Finds disk (onPaths options paths) noConfig first ∧
        Finds disk (onPaths options others) noConfig second ∧ found = first ++ second := by
  simp only [finds_iff_exists, loadLinters_onPaths, ← mapM_eq_ok_iff]
  constructor
  · rintro ⟨linters, files, hlinters, hfiles, hfound⟩
    obtain ⟨front, back, hfront, hback, rfl⟩ := scanAll_append_eq_ok_iff.1 hfiles
    obtain ⟨first, second, hfirst, hsecond, rfl⟩ := mapM_append_eq_ok_iff.1 hfound
    exact ⟨first, second, ⟨linters, front, hlinters, hfront, hfirst⟩,
      ⟨linters, back, hlinters, hback, hsecond⟩, rfl⟩
  · rintro ⟨first, second, ⟨linters, front, hlinters, hfront, hfirst⟩,
      ⟨same, back, hsame, hback, hsecond⟩, rfl⟩
    rw [hlinters, Except.ok.injEq] at hsame
    subst hsame
    exact ⟨linters, front ++ back, hlinters,
      scanAll_append_eq_ok_iff.2 ⟨front, back, hfront, hback, rfl⟩,
      mapM_append_eq_ok_iff.2 ⟨first, second, hfirst, hsecond, rfl⟩⟩

theorem verdict_append_iff {schedule one two : Schedule} {paths others : List String}
    {found : List FileReport} :
    verdict schedule disk (onPaths options (paths ++ others)) noConfig = .ok found ↔
      ∃ first second, verdict one disk (onPaths options paths) noConfig = .ok first ∧
        verdict two disk (onPaths options others) noConfig = .ok second ∧
          found = first ++ second := by
  simp only [verdict_eq_ok_iff, finds_append_iff]
  constructor
  · rintro ⟨⟨first, second, hfirst, hsecond, rfl⟩, houtput⟩
    exact ⟨first, second, ⟨hfirst, houtput⟩, ⟨hsecond, houtput⟩, rfl⟩
  · rintro ⟨first, second, ⟨hfirst, houtput⟩, ⟨hsecond, -⟩, rfl⟩
    exact ⟨⟨first, second, hfirst, hsecond, rfl⟩, houtput⟩

end Reports

section ExitCodes

theorem exitCode_append (first second : List FileReport) :
    exitCode (first ++ second) = max (exitCode first) (exitCode second) := by
  unfold exitCode
  rw [List.all_append]
  cases first.all FileReport.isClean <;> cases second.all FileReport.isClean <;> rfl

theorem codeOf_le_failure (verdict : Except Problem (List FileReport)) :
    codeOf verdict ≤ Outcome.failure := by
  cases verdict with
  | error problem => exact le_rfl
  | ok found =>
      rw [codeOf, exitCode]
      split <;> decide

/-- The exit code of two verdicts together. -/
theorem codeOf_eq_max {first second both : Except Problem (List FileReport)}
    (h : ∀ found, both = .ok found ↔
      ∃ front back, first = .ok front ∧ second = .ok back ∧ found = front ++ back) :
    codeOf both = max (codeOf first) (codeOf second) := by
  cases both with
  | ok found =>
      obtain ⟨front, back, rfl, rfl, rfl⟩ := (h found).1 rfl
      exact exitCode_append front back
  | error problem =>
      -- One of the two is a failure too, and no verdict has a greater code.
      cases first with
      | error cause => exact (max_eq_left (codeOf_le_failure second)).symm
      | ok front =>
          cases second with
          | error cause => exact (max_eq_right (codeOf_le_failure (.ok front))).symm
          | ok back => cases (h (front ++ back)).2 ⟨front, back, rfl, rfl, rfl⟩

end ExitCodes

section Runs

variable (schedule : Schedule) (environment : Environment) (invocation : Invocation)
  (options : CheckOptions) (disk : Disk)

/-- The outcome of a run on these paths. -/
def runOn (paths : List String) : Outcome :=
  run schedule environment invocation (onPaths options paths) disk

/-- The run on these paths does not fail and has these reports. -/
def CompletesOn (paths : List String) (found : List FileReport) : Prop :=
  Completes disk (onPaths options paths) environment invocation
    (runOn schedule environment invocation options disk paths) found

/-- A run on the paths of two lists, compared with the runs on each of them, whatever the three
schedules are. -/
theorem runOn_append (schedule one two : Schedule) (paths others : List String) :
    (runOn schedule environment invocation options disk (paths ++ others)).exitCode =
        max (runOn one environment invocation options disk paths).exitCode
          (runOn two environment invocation options disk others).exitCode ∧
      (∀ given, (runOn schedule environment invocation options disk given).exitCode
          ≠ Outcome.failure ↔
        ∃ found, CompletesOn schedule environment invocation options disk given found) ∧
      ∀ found,
        CompletesOn schedule environment invocation options disk (paths ++ others) found ↔
          ∃ first second, CompletesOn one environment invocation options disk paths first ∧
            CompletesOn two environment invocation options disk others second ∧
            found = first ++ second ∧
            found.length = first.length + second.length ∧
            Report.affectedCount found
              = Report.affectedCount first + Report.affectedCount second ∧
            Report.lintCount found = Report.lintCount first + Report.lintCount second := by
  refine ⟨?_, fun given => exitCode_run_ne_failure_iff schedule environment invocation _ disk,
    fun found => ?_⟩
  · simp only [runOn, exitCode_run]
    exact codeOf_eq_max fun found => verdict_append_iff
  · simp only [CompletesOn, runOn, completes_run_iff]
    rw [@verdict_append_iff _ _ _ schedule one two]
    constructor
    · rintro ⟨first, second, hfirst, hsecond, rfl⟩
      exact ⟨first, second, hfirst, hsecond, rfl, List.length_append,
        Report.affectedCount_append first second, Report.lintCount_append first second⟩
    · rintro ⟨first, second, hfirst, hsecond, rfl, -⟩
      exact ⟨first, second, hfirst, hsecond, rfl⟩

end Runs

end Check
end WrapLint
