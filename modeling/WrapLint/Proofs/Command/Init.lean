import WrapLint.Proofs.Command.Validate
import WrapLint.Proofs.Command.Verdict
import WrapLint.Proofs.Settings.Initial

/-!
# `init`, and what the other commands make of its file

`init` writes the settings file of a style, or fails and leaves the disk as it is.  A file that is
there is only overwritten by force.  The other commands accept the file, and a check with it is the
check that the style asks for on the command line.

**Results.**
* `run_cases`, `exitCode_run_eq_success_iff`: how a run of `init` ends.
* `ofText_template`: the linters that the file asks for.
* `verdict_withFile`: the verdict of a check with the file is that of a check with the style.
* `run_writes_what_check_reads`: all of it, from the disk that `init` starts from.
-/

namespace WrapLint
namespace Init

section Runs

variable {options : InitOptions} {disk : Disk}

/-- A run fails and changes nothing, or it writes the settings file. -/
theorem run_cases (options : InitOptions) (disk : Disk) :
    (∃ problem, run options disk = .failed disk [] problem) ∨
      ∃ after, disk.write options.output (template options.style) = .ok after ∧
        run options disk =
          ⟨Outcome.success, s!"Created configuration file: {options.output}\n", "", [], after⟩ := by
  unfold run write
  split_ifs with hblocked
  · exact .inl ⟨_, rfl⟩
  · cases hwrite : disk.write options.output (template options.style) with
    | error fault => exact .inl ⟨_, rfl⟩
    | ok after => exact .inr ⟨after, rfl, rfl⟩

/-- A run succeeds iff the file may be written, as far as the options go, and can be. -/
theorem exitCode_run_eq_success_iff (options : InitOptions) (disk : Disk) :
    (run options disk).exitCode = Outcome.success ↔
      (disk.isPresent options.output = true → options.force = true) ∧
        ∃ place, disk.writePlace options.output = .ok place := by
  unfold run write
  split_ifs with hblocked
  · have hforce : options.force ≠ true := hblocked.2
    exact iff_of_false nofun fun h => hforce (h.1 hblocked.1)
  · have hfree : disk.isPresent options.output = true → options.force = true := fun hpresent =>
      by_contra fun hforce => hblocked ⟨hpresent, hforce⟩
    unfold Disk.write
    cases hplace : disk.writePlace options.output with
    | error fault => exact iff_of_false nofun (by simp)
    | ok place => exact iff_of_true rfl ⟨hfree, place, rfl⟩

theorem disk_run_of_failure (h : (run options disk).exitCode ≠ Outcome.success) :
    (run options disk).exitCode = Outcome.failure ∧ (run options disk).disk = disk := by
  rcases run_cases options disk with ⟨problem, hrun⟩ | ⟨after, -, hrun⟩
  · rw [hrun]
    exact ⟨rfl, rfl⟩
  · exact absurd (by rw [hrun]) h

theorem exitCode_run_of_isPresent (hpresent : disk.isPresent options.output = true)
    (hforce : options.force = false) : (run options disk).exitCode = Outcome.failure := by
  refine (disk_run_of_failure fun hsuccess => ?_).1
  have hforced := ((exitCode_run_eq_success_iff options disk).1 hsuccess).1 hpresent
  rw [hforce] at hforced
  cases hforced

theorem wrote_of_success (h : (run options disk).exitCode = Outcome.success) :
    disk.Wrote (run options disk).disk options.output (template options.style) := by
  rcases run_cases options disk with ⟨problem, hrun⟩ | ⟨after, hwrite, hrun⟩
  · rw [hrun] at h
    cases h
  · rw [hrun]
    exact Disk.wrote_of_write hwrite

end Runs

section File

variable {disk : Disk} {path : String} {style : Style}

theorem ofText_template (style : Style) :
    Registry.ofText (template style) = .ok [AttributesWrapper.linter style] := by
  have hset := Registry.outcome_linters_setStyle .standard style
  rw [Registry.ofText, Settings.ofText, read?_template]
  exact hset

/-- `config validate` accepts the file, with one linter. -/
theorem validate_run (hread : disk.read path = .ok (template style)) :
    (Validate.run path disk).exitCode = Outcome.success ∧
      (Validate.run path disk).stdout
        = s!"Configuration is valid: {path} ({1} linter(s) enabled)\n" := by
  have hcount : (Validate.enabledCount disk path).outcome = .ok 1 := by
    rw [Validate.outcome_enabledCount hread, ofText_template]
    rfl
  exact ⟨Validate.exitCode_of_ok hcount, Validate.stdout_of_ok hcount⟩

/-- The options of a check with the settings of a file, whatever style they named. -/
def withFile (path : String) (options : CheckOptions) : CheckOptions :=
  { options with config := some path, style := none }

/-- The options of a check in a style. -/
def inStyle (style : Style) (options : CheckOptions) : CheckOptions :=
  { options with style := some style }

theorem outcome_loadLinters_withFile (hread : disk.read path = .ok (template style))
    (options : CheckOptions) :
    (Check.loadLinters disk (withFile path options) false).outcome
      = .ok [AttributesWrapper.linter style] := by
  rw [Validate.outcome_loadLinters rfl rfl, hread]
  exact ofText_template style

theorem outcome_loadLinters_inStyle (disk : Disk) (style : Style) (options : CheckOptions) :
    (Check.loadLinters disk (inStyle style options) true).outcome
      = .ok [AttributesWrapper.linter style] := by
  have hset := Registry.outcome_linters_setStyle .standard style
  exact hset

/-- On a disk with the file, a check with it comes to the verdict of a check in its style without
any settings. -/
theorem verdict_withFile (hread : disk.read path = .ok (template style))
    (schedule : Check.Schedule) (options : CheckOptions) :
    Check.verdict schedule disk (withFile path options) false
      = Check.verdict schedule disk (inStyle style options) true := by
  rw [Check.verdict, Check.verdict, Check.outcome_reports, Check.outcome_reports,
    outcome_loadLinters_withFile hread, outcome_loadLinters_inStyle]
  rfl

end File

/-- A run of `init` fails and changes nothing, as it does if the file is there and may not be
overwritten, or it writes one file.  It succeeds iff the file may be written and can be.  Then
`config validate` accepts the file, with one linter, and a check with the file ends like a check in
its style without any settings, with the same reports whatever the schedules are, and with the same
error if they are the same. -/
theorem run_writes_what_check_reads (options : InitOptions) (disk : Disk) :
    let outcome := run options disk
    (outcome.exitCode ≠ Outcome.success →
        outcome.exitCode = Outcome.failure ∧ outcome.disk = disk) ∧
      (disk.isPresent options.output = true → options.force = false →
        outcome.exitCode = Outcome.failure) ∧
      (outcome.exitCode = Outcome.success ↔
        (disk.isPresent options.output = true → options.force = true) ∧
          ∃ place, disk.writePlace options.output = .ok place) ∧
      (outcome.exitCode = Outcome.success →
        disk.Wrote outcome.disk options.output (template options.style) ∧
          (Validate.run options.output outcome.disk).exitCode = Outcome.success ∧
          (Validate.run options.output outcome.disk).stdout
            = s!"Configuration is valid: {options.output} ({1} linter(s) enabled)\n" ∧
          ∀ (schedule otherSchedule : Check.Schedule) (environment : Environment)
            (invocation : Invocation) (check : CheckOptions),
            let filed := withFile options.output check
            let styled := inStyle options.style check
            let reading : Invocation := { invocation with noConfig := false }
            let bare : Invocation := { invocation with noConfig := true }
            let one := Check.run schedule environment reading filed outcome.disk
            let other := Check.run otherSchedule environment bare styled outcome.disk
            one.exitCode = other.exitCode ∧
              (schedule = otherSchedule → one.stderr = other.stderr) ∧
              (one.exitCode ≠ Outcome.failure ↔
                ∃ found, Check.Completes outcome.disk filed environment reading one found) ∧
              ∀ found, Check.Completes outcome.disk styled environment bare other found ↔
                Check.Completes outcome.disk filed environment reading one found) := by
  refine ⟨disk_run_of_failure, exitCode_run_of_isPresent,
    exitCode_run_eq_success_iff options disk, fun hsuccess => ?_⟩
  have hwrote := wrote_of_success hsuccess
  obtain ⟨hcode, hstdout⟩ := validate_run hwrote.read
  refine ⟨hwrote, hcode, hstdout,
    fun schedule otherSchedule environment invocation check => ?_⟩
  intro filed styled reading bare one other
  have hverdict (schedule : Check.Schedule) :
      Check.verdict schedule (run options disk).disk filed reading.noConfig
        = Check.verdict schedule (run options disk).disk styled bare.noConfig :=
    verdict_withFile hwrote.read schedule check
  have hreports (found : List FileReport) :
      Check.verdict schedule (run options disk).disk filed reading.noConfig = .ok found ↔
        Check.verdict otherSchedule (run options disk).disk styled bare.noConfig = .ok found := by
    rw [hverdict, Check.verdict_eq_ok_iff, Check.verdict_eq_ok_iff]
  obtain ⟨hsame, hfound⟩ := Check.run_congr hreports environment environment
  refine ⟨hsame, ?_, Check.exitCode_run_ne_failure_iff _ _ _ _ _, hfound⟩
  rintro rfl
  exact (Check.stderr_run _ _ _ _ _).trans (by rw [hverdict, Check.stderr_run])

/-- Settings that ask for curly brackets, to be written where nothing is. -/
def curlySettings : InitOptions :=
  ⟨"s.toml", .curly, false⟩

/-- The working directory with one document, once the settings are in it. -/
def withCurlySettings : Disk :=
  (run curlySettings Check.oneDocument).disk

/-- The settings are written once and not twice, and a check with them finds a document in another
style. -/
theorem run_writes_what_check_reads_twice :
    let check : CheckOptions := ⟨["d.slim.json"], none, none, .text, none⟩
    let invocation : Invocation := ⟨0, false, .auto, false, .check check⟩
    Check.oneDocument.isPresent "s.toml" = false ∧
      (run curlySettings Check.oneDocument).exitCode = Outcome.success ∧
      Check.oneDocument.Wrote withCurlySettings "s.toml" (template .curly) ∧
      withCurlySettings.isPresent "s.toml" = true ∧
      (run curlySettings withCurlySettings).exitCode = Outcome.failure ∧
      (run curlySettings withCurlySettings).disk = withCurlySettings ∧
      (Validate.run "s.toml" withCurlySettings).exitCode = Outcome.success ∧
      (Check.run .inOrder ⟨false, true⟩ invocation (withFile "s.toml" check) withCurlySettings).exitCode
        = Outcome.lintsFound := by
  intro check invocation
  have hdone : (run curlySettings Check.oneDocument).exitCode = Outcome.success := rfl
  obtain ⟨-, -, -, hsuccess⟩ := run_writes_what_check_reads curlySettings Check.oneDocument
  obtain ⟨hwrote, hcode, -, hcheck⟩ := hsuccess hdone
  obtain ⟨hfailed, hpresent, -⟩ := run_writes_what_check_reads curlySettings withCurlySettings
  have hthere : withCurlySettings.isPresent "s.toml" = true :=
    Validate.isPresent_of_read hwrote.read
  have hagain : (run curlySettings withCurlySettings).exitCode = Outcome.failure :=
    hpresent hthere rfl
  have hkept : (run curlySettings withCurlySettings).disk = withCurlySettings :=
    (hfailed (by rw [hagain]; decide)).2
  have hlinters := outcome_loadLinters_inStyle withCurlySettings .curly check
  have hverdict : Check.verdict .inOrder withCurlySettings (inStyle .curly check) true = .ok
      [⟨"d.slim.json", [⟨"AttributesWrapper", .line 1, Style.curly.message⟩]⟩] :=
    Check.verdict_eq_ok_iff.2
      ⟨Check.finds_one_lint hlinters rfl (Check.holdsDocument_of_read rfl) rfl, rfl⟩
  obtain ⟨hsame, -⟩ := hcheck .inOrder .inOrder ⟨false, true⟩ invocation check
  refine ⟨rfl, hdone, hwrote, hthere, hagain, hkept, hcode, hsame.trans ?_⟩
  exact (Check.exitCode_run _ _ _ _ _).trans (congrArg Check.codeOf hverdict)

end Init
end WrapLint
