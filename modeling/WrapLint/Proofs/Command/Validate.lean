import Mathlib
import WrapLint.Command.Check
import WrapLint.Command.Validate
import WrapLint.CommandLine.Parser
import WrapLint.Proofs.Files.WorkingDirectory
import WrapLint.Proofs.Registry
import WrapLint.Proofs.Settings.Loader

/-!
# `config validate` and `check` on the same settings file

`config validate` looks whether the file is there, reads it and builds the linters.  `check`
loads the settings, from a path or from the working directory, and may change them before it
builds the linters.  With no style on the command line the two commands agree, except that `check`
looks for the local settings file by its path from the root, which may be too long to be followed.

**Results.**
* `outcome_enabledCount`: what `config validate` makes of a text that it can read.
* `outcome_loadLinters`: what `check` makes of the text of its settings file.
* `agrees_with_check`: the two agree on a file at a path that is named to both, and on the local
  settings file unless its path from the root is too long.
* `not_agrees_in_deep_directory`: they do not agree on every local settings file.
-/

namespace WrapLint

/-- What can be wrong with settings that can be read: they are no settings, or the linters that
they ask for cannot be built. -/
inductive Problem.IsRefusal : Problem → Prop
  | toml : IsRefusal .invalidToml
  | linter (name : String) : IsRefusal (.unknownLinter name)
  | option (linter option expected : String) : IsRefusal (.invalidOption linter option expected)
  | style (word : String) : IsRefusal (.unknownStyle word)

/-- The linters that a text asks for. -/
def Registry.ofText (text : String) : Except Problem (List Linter) :=
  (Settings.ofText text).bind fun settings => (linters settings).outcome

theorem Registry.isRefusal_of_ofText {text : String} {problem : Problem}
    (h : ofText text = .error problem) : problem.IsRefusal := by
  unfold ofText Settings.ofText at h
  cases hread : Settings.read? text with
  | none =>
      rw [hread] at h
      cases h
      exact .toml
  | some settings =>
      rw [hread] at h
      rcases eq_of_outcome_linters_eq_error h with ⟨name, rfl⟩ | rfl | ⟨word, rfl⟩
      · exact .linter name
      · exact .option _ _ _
      · exact .style word

namespace Validate

/-- `config validate` and a run of `check` agree on the settings file at this path: one accepts
it iff the other does, and then with the same number of linters; and if its text can be read and
is refused, it is refused for the same problem. -/
structure Agrees (disk : Disk) (path : String) (options : CheckOptions) : Prop where
  accepts_iff : (run path disk).exitCode = Outcome.success ↔
    ∃ linters, (Check.loadLinters disk options false).outcome = .ok linters
  count : ∀ linters, (Check.loadLinters disk options false).outcome = .ok linters →
    (run path disk).stdout
      = s!"Configuration is valid: {path} ({linters.length} linter(s) enabled)\n"
  problem_iff : ∀ text, disk.read path = .ok text → ∀ problem,
    (enabledCount disk path).outcome = .error problem ↔
      (Check.loadLinters disk options false).outcome = .error problem
  refusal : ∀ text, disk.read path = .ok text → ∀ problem,
    (enabledCount disk path).outcome = .error problem → problem.IsRefusal

/-- There is a settings file in the working directory.  (The names on the way to the directory are
such as entries can have.) -/
structure HasLocalSettings (disk : Disk) : Prop where
  names : ∀ name ∈ disk.workingDirectory, Path.IsEntryName name
  present : disk.isPresent Settings.localName = true

section OneFile

variable {disk : Disk} {path : String} {options : CheckOptions}

theorem isPresent_of_read {text : String} (h : disk.read path = .ok text) :
    disk.isPresent path = true := by
  unfold Disk.read at h
  unfold Disk.isPresent
  cases hentry : disk.entry path with
  | error fault =>
      rw [hentry] at h
      cases h
  | ok entry => rfl

theorem exists_outcome_enabledCount_eq_error {fault : FileFault}
    (h : disk.read path = .error fault) :
    ∃ problem, (enabledCount disk path).outcome = .error problem := by
  unfold enabledCount loadSettings
  rw [h]
  cases disk.isPresent path with
  | true => exact ⟨_, rfl⟩
  | false => exact ⟨_, rfl⟩

theorem outcome_enabledCount {text : String} (h : disk.read path = .ok text) :
    (enabledCount disk path).outcome = (Registry.ofText text).map List.length := by
  have hload : loadSettings disk path = Settings.ofText text := by
    rw [loadSettings, isPresent_of_read h, h]
    rfl
  rw [enabledCount, hload, Registry.ofText, Traced.outcome_bind, Traced.outcome_ofExcept]
  cases Settings.ofText text with
  | error problem => rfl
  | ok settings =>
      simp only [Except.bind, Traced.outcome_bind]
      cases (Registry.linters settings).outcome <;> rfl

theorem outcome_loadLinters {source : String} (hstyle : options.style = none)
    (hload : Check.loadSettings disk options.config false
      = Settings.loadFrom disk.access source) :
    (Check.loadLinters disk options false).outcome =
      match disk.read source with
      | .error fault => .error (.unreadable source fault)
      | .ok text => Registry.ofText text := by
  rw [Check.loadLinters, Traced.outcome_bind, hload, Settings.outcome_loadFrom, hstyle]
  change Except.bind (match disk.read source with
    | .error fault => .error (.unreadable source fault)
    | .ok text => Settings.ofText text) _ = _
  cases disk.read source <;> rfl

theorem exitCode_of_error {problem : Problem}
    (h : (enabledCount disk path).outcome = .error problem) :
    (run path disk).exitCode = Outcome.failure := by
  simp [run, h, Outcome.failed]

theorem exitCode_of_ok {count : Nat} (h : (enabledCount disk path).outcome = .ok count) :
    (run path disk).exitCode = Outcome.success := by
  simp [run, h]

theorem stdout_of_ok {count : Nat} (h : (enabledCount disk path).outcome = .ok count) :
    (run path disk).stdout
      = s!"Configuration is valid: {path} ({count} linter(s) enabled)\n" := by
  simp [run, h]

theorem agrees_of_error {problem other : Problem}
    (hvalidate : (enabledCount disk path).outcome = .error problem)
    (hcheck : (Check.loadLinters disk options false).outcome = .error other)
    (hsame : ∀ text, disk.read path = .ok text → problem = other ∧ problem.IsRefusal) :
    Agrees disk path options where
  accepts_iff := iff_of_false (by rw [exitCode_of_error hvalidate]; decide) (by simp [hcheck])
  count := by simp [hcheck]
  problem_iff text htext := by simp [hvalidate, hcheck, (hsame text htext).1]
  refusal text htext cause hcause := by
    rw [hvalidate, Except.error.injEq] at hcause
    exact hcause ▸ (hsame text htext).2

theorem agrees_of_ok {linters : List Linter}
    (hvalidate : (enabledCount disk path).outcome = .ok linters.length)
    (hcheck : (Check.loadLinters disk options false).outcome = .ok linters) :
    Agrees disk path options where
  accepts_iff := iff_of_true (exitCode_of_ok hvalidate) ⟨linters, hcheck⟩
  count other hother := by
    rw [hcheck, Except.ok.injEq] at hother
    rw [← hother, stdout_of_ok hvalidate]
  problem_iff := by simp [hvalidate, hcheck]
  refusal := by simp [hvalidate]

theorem agrees_of_read_eq {source : String} (hstyle : options.style = none)
    (hload : Check.loadSettings disk options.config false
      = Settings.loadFrom disk.access source)
    (hread : disk.read source = disk.read path) : Agrees disk path options := by
  have hcheck := outcome_loadLinters hstyle hload
  rw [hread] at hcheck
  cases htext : disk.read path with
  | error fault =>
      -- The two commands name different problems here; they agree in that they fail.
      rw [htext] at hcheck
      obtain ⟨problem, hvalidate⟩ := exists_outcome_enabledCount_eq_error htext
      exact agrees_of_error hvalidate hcheck (by simp [htext])
  | ok text =>
      have hvalidate := outcome_enabledCount htext
      simp only [htext] at hcheck
      cases hlinters : Registry.ofText text with
      | error problem =>
          rw [hlinters] at hcheck hvalidate
          exact agrees_of_error hvalidate hcheck fun _ _ =>
            ⟨rfl, Registry.isRefusal_of_ofText hlinters⟩
      | ok linters =>
          rw [hlinters] at hcheck hvalidate
          exact agrees_of_ok hvalidate hcheck

/-- With a settings file in the working directory, `check` reads what `config validate` does, unless
the path from the root is too long. -/
theorem agrees_localName (h : HasLocalSettings disk) (hstyle : options.style = none)
    (hconfig : options.config = none)
    (hshort : Path.isTooLong (Path.join disk.workingPath Settings.localName) = false) :
    Agrees disk Settings.localName options := by
  have hentry := Disk.entry_join_workingPath (by decide) h.names hshort h.present
  have hpresent : disk.isPresent (Path.join disk.workingPath Settings.localName) = true := by
    rw [Disk.isPresent, hentry]
    exact h.present
  have hload : Check.loadSettings disk options.config false
      = Settings.loadFrom disk.access (Path.join disk.workingPath Settings.localName) := by
    rw [hconfig]
    exact Settings.load_of_isPresent disk.access rfl hpresent
  exact agrees_of_read_eq hstyle hload (by rw [Disk.read, Disk.read, hentry])

/-- If the path from the root is too long, `check` runs with the standard settings. -/
theorem outcome_loadLinters_of_isTooLong (hstyle : options.style = none)
    (hconfig : options.config = none)
    (hlong : Path.isTooLong (Path.join disk.workingPath Settings.localName) = true) :
    (Check.loadLinters disk options false).outcome
      = .ok [⟨"AttributesWrapper", AttributesWrapper.run .unwrapped⟩] := by
  have hload : Check.loadSettings disk options.config false = Settings.loadStandard := by
    rw [hconfig]
    exact Settings.load_of_not_isPresent disk.access rfl (Disk.isPresent_of_isTooLong hlong)
  rw [Check.loadLinters, Traced.outcome_bind, hload, Settings.outcome_loadStandard, hstyle]
  rfl

end OneFile

/-- `config validate` and `check` agree on settings, unless the command line names a style: on a
file at a path that is named to both, and on the settings file of the working directory if it has
one and neither command is given a path.  But if the path of that file from the root is too long,
`check` runs with the standard settings, whatever the file says. -/
theorem agrees_with_check (disk : Disk) (options : CheckOptions) (hstyle : options.style = none) :
    (∀ path, options.config = some path → Agrees disk path options) ∧
      (options.config = none → HasLocalSettings disk →
        (Path.isTooLong (Path.join disk.workingPath Settings.localName) = false →
          ∀ given path, given.value? .config = none →
            CommandLine.command? .validate given = some (.validate path) →
            Agrees disk path options) ∧
        (Path.isTooLong (Path.join disk.workingPath Settings.localName) = true →
          (Check.loadLinters disk options false).outcome
            = .ok [⟨"AttributesWrapper", AttributesWrapper.run .unwrapped⟩])) := by
  constructor
  · intro path hconfig
    refine agrees_of_read_eq hstyle ?_ rfl
    rw [hconfig]
    rfl
  · intro hconfig hlocal
    refine ⟨fun hshort given path hgiven hcommand => ?_,
      outcome_loadLinters_of_isTooLong hstyle hconfig⟩
    rw [CommandLine.command?, hgiven] at hcommand
    obtain rfl : Settings.localName = path := by simpa [Settings.localName] using hcommand
    exact agrees_localName hlocal hstyle hconfig hshort

section Directories

/-- Directories one in another, with these names, and this entry in the last of them. -/
def nested (names : List String) (entry : Entry) : Entry :=
  names.foldr (fun name below => .directory [(name, below)]) entry

theorem at?_nested (names : List String) (entry : Entry) :
    (nested names entry).at? names = some entry := by
  induction names with
  | nil => rfl
  | cons name names ih => simpa [nested, Entry.at?] using ih

/-- A working directory at the end of these names, with a settings file of this text. -/
def localDisk (names : List String) (text : String) : Disk :=
  ⟨nested names (.directory [(Settings.localName, .file (.text text))]), names⟩

theorem read_localDisk (names : List String) (text : String) :
    (localDisk names text).read Settings.localName = .ok text := by
  have hdirectory : (localDisk names text).at? names
      = some (.directory [(Settings.localName, .file (.text text))]) :=
    at?_nested names _
  have hfile : (localDisk names text).at? (names ++ [Settings.localName])
      = some (.file (.text text)) := by
    rw [Disk.at?] at hdirectory ⊢
    rw [Entry.at?_append, hdirectory]
    rfl
  have hresolve : (localDisk names text).resolve Settings.localName
      = .ok (names ++ [Settings.localName]) := by
    rw [Disk.resolve_name (by decide)]
    change (localDisk names text).follow names Settings.localName = _
    exact Disk.follow_of_directory hdirectory (by decide) (by decide) (by rw [hfile]; rfl)
  simp [Disk.read, Disk.entry, hresolve, hfile, bind, Except.bind]

/-- The names of sixteen directories one in another, each as long as a name can be. -/
def deepNames : List String :=
  List.replicate 16 (String.ofList (List.replicate 255 'a'))

theorem hasLocalSettings_deep (text : String) : HasLocalSettings (localDisk deepNames text) where
  names name hname := by
    obtain rfl := List.eq_of_mem_replicate hname
    decide +kernel
  present := isPresent_of_read (read_localDisk deepNames text)

theorem utf8ByteSize_intercalate (name : String) (names : List String) :
    (String.intercalate "/" (name :: names)).utf8ByteSize
      = name.utf8ByteSize + (names.map fun part => part.utf8ByteSize + 1).sum := by
  induction names generalizing name with
  | nil => simp
  | cons next names ih =>
      have hslash : "/".utf8ByteSize = 1 := rfl
      rw [String.intercalate_cons_of_ne_nil (by simp), String.utf8ByteSize_append,
        String.utf8ByteSize_append, ih, hslash, List.map_cons, List.sum_cons]
      omega

theorem isTooLong_deep (text : String) :
    Path.isTooLong (Path.join (localDisk deepNames text).workingPath Settings.localName)
      = true := by
  have hnames : ∀ name ∈ (localDisk deepNames text).workingDirectory, Path.IsName name :=
    fun name hname => ((hasLocalSettings_deep text).names name hname).is_name
  rw [Disk.join_workingPath hnames, Path.isTooLong, decide_eq_true_eq,
    List.cons_append, utf8ByteSize_intercalate]
  change Path.maxPathBytes < "".utf8ByteSize
    + ((deepNames ++ [Settings.localName]).map fun part => part.utf8ByteSize + 1).sum
  decide +kernel

/-- A working directory with two settings files. -/
def twoFiles : Disk :=
  ⟨.directory [("w", .directory
    [(".wrap-guard.toml", .file (.text "linters.AttributesWrapper.enabled=false")),
      ("s.toml", .file (.text "linters.AttributesWrapper.style='x'"))])], ["w"]⟩

/-- A deep working directory with settings that are refused. -/
def deepDisk : Disk :=
  localDisk deepNames "linters.AttributesWrapper.style='x'"

theorem outcome_enabledCount_unknownStyle {disk : Disk} {path : String}
    (h : disk.read path = .ok "linters.AttributesWrapper.style='x'") :
    (enabledCount disk path).outcome = .error (.unknownStyle "x") := by
  have hstyle : Settings.read? "linters.AttributesWrapper.style='x'"
      = some ⟨[("AttributesWrapper", ⟨true, [("style", .string "x")]⟩)]⟩ := by cbv
  rw [outcome_enabledCount h, Registry.ofText, Settings.ofText, hstyle]
  rfl

end Directories

/-- Settings that are refused, and others that are accepted, once as `config validate` finds it
and so, by agreement, as `check` does; and settings that `check` does not find. -/
theorem agrees_with_check_three_files :
    let named : CheckOptions := ⟨["."], some "s.toml", none, .text, none⟩
    let bare : CheckOptions := ⟨["."], none, none, .text, none⟩
    HasLocalSettings twoFiles ∧ Agrees twoFiles "s.toml" named ∧
      Agrees twoFiles ".wrap-guard.toml" bare ∧
      (Check.loadLinters twoFiles named false).outcome = .error (.unknownStyle "x") ∧
      (∃ linters, (Check.loadLinters twoFiles bare false).outcome = .ok linters) ∧
      HasLocalSettings deepDisk ∧
      (Check.loadLinters deepDisk bare false).outcome
        = .ok [⟨"AttributesWrapper", AttributesWrapper.run .unwrapped⟩] := by
  intro named bare
  have henabled : Settings.read? "linters.AttributesWrapper.enabled=false"
      = some ⟨[("AttributesWrapper", ⟨false, []⟩)]⟩ := by cbv
  have hlocal : HasLocalSettings twoFiles := ⟨by decide, rfl⟩
  have hdeep : HasLocalSettings deepDisk := hasLocalSettings_deep _
  have hnamed : Agrees twoFiles "s.toml" named :=
    (agrees_with_check twoFiles named rfl).1 "s.toml" rfl
  have hbare : Agrees twoFiles ".wrap-guard.toml" bare :=
    ((agrees_with_check twoFiles bare rfl).2 rfl hlocal).1 rfl .nothing ".wrap-guard.toml" rfl rfl
  have hrefused : (enabledCount twoFiles "s.toml").outcome = .error (.unknownStyle "x") :=
    outcome_enabledCount_unknownStyle rfl
  have haccepted : (enabledCount twoFiles ".wrap-guard.toml").outcome = .ok 0 := by
    rw [outcome_enabledCount rfl, Registry.ofText, Settings.ofText, henabled]
    rfl
  exact ⟨hlocal, hnamed, hbare, (hnamed.problem_iff _ rfl _).1 hrefused,
    hbare.accepts_iff.1 (exitCode_of_ok haccepted), hdeep,
    ((agrees_with_check deepDisk bare rfl).2 rfl hdeep).2 (isTooLong_deep _)⟩

/-- In a deep directory `config validate` reads the settings file and refuses it, but `check` does
not see it and runs with the standard settings. -/
theorem not_agrees_in_deep_directory :
    let bare : CheckOptions := ⟨["."], none, none, .text, none⟩
    HasLocalSettings deepDisk ∧
      CommandLine.command? .validate .nothing = some (.validate ".wrap-guard.toml") ∧
      (run ".wrap-guard.toml" deepDisk).exitCode = Outcome.failure ∧
      (enabledCount deepDisk ".wrap-guard.toml").outcome = .error (.unknownStyle "x") ∧
      (Check.loadLinters deepDisk bare false).outcome
        = .ok [⟨"AttributesWrapper", AttributesWrapper.run .unwrapped⟩] ∧
      ¬ Agrees deepDisk ".wrap-guard.toml" bare := by
  intro bare
  have hrefused : (enabledCount deepDisk ".wrap-guard.toml").outcome = .error (.unknownStyle "x") :=
    outcome_enabledCount_unknownStyle (read_localDisk deepNames _)
  have hstandard : (Check.loadLinters deepDisk bare false).outcome
      = .ok [⟨"AttributesWrapper", AttributesWrapper.run .unwrapped⟩] :=
    outcome_loadLinters_of_isTooLong rfl rfl (isTooLong_deep _)
  refine ⟨hasLocalSettings_deep _, rfl, exitCode_of_error hrefused, hrefused, hstandard,
    fun hagrees => ?_⟩
  have hsuccess := hagrees.accepts_iff.2 ⟨_, hstandard⟩
  rw [exitCode_of_error hrefused] at hsuccess
  cases hsuccess

end Validate
end WrapLint
