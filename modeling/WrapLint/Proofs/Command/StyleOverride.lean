import Mathlib
import WrapLint.Proofs.Command.Check
import WrapLint.Proofs.Registry
import WrapLint.Proofs.Settings.Loader

/-!
# The style of the command line

A style on the command line takes the place of whatever the settings say of it.  What is left of
the settings in the run is whether they name linters that do not exist, and whether they switch
the check off.

**Results.**
* `outcome_loadLinters_of_overrides`: the linters of a run with a style on the command line.
* `style_of_command_line_decides`: the linters of any settings once a style is set, and two runs
  with that style on the same documents.
-/

namespace WrapLint
namespace Check

/-- Two disks hold the same documents at these paths: the scans find the same files, and what is
loaded from them is the same. -/
def SameDocuments (disk other : Disk) (paths : List String) : Prop :=
  ∀ path ∈ paths, scan disk path = scan other path ∧
    ∀ files, scan disk path = .ok files →
      ∀ file ∈ files, loadDocument disk file = loadDocument other file

/-- The command line names the style, and the settings that are loaded name only linters that
exist. -/
structure Overrides (disk : Disk) (options : CheckOptions) (noConfig : Bool) (style : Style)
    (settings : Settings) : Prop where
  named : options.style = some style
  loaded : (loadSettings disk options.config noConfig).outcome = .ok settings
  known : ∀ entry ∈ settings.sections, entry.1 ∈ Registry.names

section TwoRuns

variable {disk other : Disk} {options others : CheckOptions} {noConfig otherNoConfig : Bool}
  {style : Style} {settings : Settings}

theorem outcome_loadLinters_of_overrides (h : Overrides disk options noConfig style settings) :
    (loadLinters disk options noConfig).outcome =
      if (settings.sectionOrStandard AttributesWrapper.name).enabled then
        .ok [AttributesWrapper.linter style]
      else .ok [] := by
  rw [loadLinters, Traced.outcome_bind, h.loaded, h.named]
  have hknown := (Registry.unknownName?_eq_none_iff settings).2 h.known
  have hlinters := Registry.outcome_linters_setStyle settings style
  rw [hknown] at hlinters
  exact hlinters

theorem outcome_lintAll_congr_disk {linters : List Linter} {files : List String}
    (schedule : Schedule)
    (h : ∀ file ∈ files, loadDocument disk file = loadDocument other file) :
    (lintAll schedule disk linters files).outcome
      = (lintAll schedule other linters files).outcome := by
  rw [outcome_lintAll, outcome_lintAll]
  congr 1
  refine mapM_congr fun task htask => ?_
  rw [outcome_lintFile, outcome_lintFile, h task.1 (mem_of_mem_order htask)]

theorem outcome_reports_congr (schedule : Schedule) (hpaths : others.paths = options.paths)
    (hdocuments : SameDocuments disk other options.paths)
    (hlinters : (loadLinters disk options noConfig).outcome =
      (loadLinters other others otherNoConfig).outcome) :
    (reports schedule disk options noConfig).outcome
      = (reports schedule other others otherNoConfig).outcome := by
  have hscan : scanAll disk options.paths = scanAll other others.paths := by
    rw [hpaths, scanAll, scanAll, mapM_congr fun path hpath => (hdocuments path hpath).1]
  rw [outcome_reports, outcome_reports, hlinters, ← hscan]
  cases (loadLinters other others otherNoConfig).outcome with
  | error problem => rfl
  | ok linters =>
      cases hfiles : scanAll disk options.paths with
      | error problem => rfl
      | ok files =>
          refine outcome_lintAll_congr_disk schedule fun file hfile => ?_
          obtain ⟨path, hpath, inner, hinner, hmem⟩ := (mem_scanAll_iff hfiles).1 hfile
          exact (hdocuments path hpath).2 inner (scan_eq_ok_iff.2 hinner) file hmem

end TwoRuns

/-- A style that is set decides alone in which style the check runs.  The only problem that is
left is an unknown linter, the one that there was before; otherwise the check runs in this style,
unless the settings switch it off.  So two runs with this style on the command line, on the same
documents, and with settings that name only linters that exist and agree whether the check is
switched off, have the same reports. -/
theorem style_of_command_line_decides (style : Style) :
    (∀ settings : Settings,
      let overridden := settings.setOption AttributesWrapper.name "style" style.keyword
      (∀ name, (Registry.linters overridden).outcome = .error (.unknownLinter name) ↔
          (Registry.linters settings).outcome = .error (.unknownLinter name)) ∧
        ((∃ name, (Registry.linters overridden).outcome = .error (.unknownLinter name)) ∨
          settings.Disables AttributesWrapper.name ∧
            (Registry.linters overridden).outcome = .ok [] ∨
          ¬ settings.Disables AttributesWrapper.name ∧
            (Registry.linters overridden).outcome
              = .ok [⟨"AttributesWrapper", AttributesWrapper.run style⟩])) ∧
      ∀ (disk other : Disk) (options others : CheckOptions) (noConfig otherNoConfig : Bool)
        (settings otherSettings : Settings),
        Overrides disk options noConfig style settings →
        Overrides other others otherNoConfig style otherSettings →
        (settings.Disables AttributesWrapper.name ↔
          otherSettings.Disables AttributesWrapper.name) →
        others.paths = options.paths → SameDocuments disk other options.paths →
        (∀ schedule, (reports schedule disk options noConfig).outcome
            = (reports schedule other others otherNoConfig).outcome) ∧
          ∀ schedule otherSchedule found,
            (reports schedule disk options noConfig).outcome = .ok found ↔
              (reports otherSchedule other others otherNoConfig).outcome = .ok found := by
  refine ⟨fun settings => ⟨fun name => ?_, ?_⟩, ?_⟩
  · rw [Registry.outcome_linters_eq_unknownLinter_iff,
      Registry.outcome_linters_eq_unknownLinter_iff,
      Registry.unknownName?_setOption settings (by decide)]
  · rw [Registry.outcome_linters_setStyle]
    cases Registry.unknownName? settings with
    | some name => exact Or.inl ⟨name, rfl⟩
    | none =>
        refine Or.inr ?_
        have henabled := settings.enabled_sectionOrStandard_iff AttributesWrapper.name
        by_cases hdisables : settings.Disables AttributesWrapper.name
        · exact Or.inl ⟨hdisables, if_neg fun h => henabled.1 h hdisables⟩
        · exact Or.inr ⟨hdisables, if_pos (henabled.2 hdisables)⟩
  · intro disk other options others noConfig otherNoConfig settings otherSettings hrun hother
      hdisables hpaths hdocuments
    have henabled : (settings.sectionOrStandard AttributesWrapper.name).enabled =
        (otherSettings.sectionOrStandard AttributesWrapper.name).enabled := by
      rw [Bool.eq_iff_iff, Settings.enabled_sectionOrStandard_iff,
        Settings.enabled_sectionOrStandard_iff, hdisables]
    have hlinters : (loadLinters disk options noConfig).outcome
        = (loadLinters other others otherNoConfig).outcome := by
      rw [outcome_loadLinters_of_overrides hrun, outcome_loadLinters_of_overrides hother, henabled]
    have hsame (schedule : Schedule) :=
      outcome_reports_congr schedule hpaths hdocuments hlinters
    refine ⟨hsame, fun schedule otherSchedule found => ?_⟩
    rw [hsame, outcome_reports_eq_ok_iff, outcome_reports_eq_ok_iff]

/-- A working directory with a settings file of this text and a document. -/
def diskWith (text : String) : Disk :=
  ⟨.directory [("w", .directory [("s.toml", .file (.text text)),
    ("d.slim.json", .file (.text "[\"div[a=1]\",\x7b\"kind\":\"other\",\"line\":1\x7d]"))])], ["w"]⟩

theorem read_diskWith (text : String) :
    (diskWith text).read "s.toml" = .ok text := by
  rfl

theorem outcome_loadSettings_diskWith {text : String} {settings : Settings}
    (h : Settings.read? text = some settings) :
    (loadSettings (diskWith text) (some "s.toml") false).outcome = .ok settings := by
  rw [loadSettings, if_neg (by decide), Settings.outcome_loadFrom]
  simp only [Disk.access, read_diskWith, Settings.ofText, h]

theorem sameDocuments_diskWith (text other : String) :
    SameDocuments (diskWith text) (diskWith other) ["d.slim.json"] := by
  intro path hpath
  obtain rfl := List.mem_singleton.1 hpath
  have hscan : ∀ text, scan (diskWith text) "d.slim.json" = .ok ["d.slim.json"] := by
    intro text
    rfl
  refine ⟨by rw [hscan, hscan], ?_⟩
  intro files hfiles file hfile
  rw [hscan] at hfiles
  cases hfiles
  obtain rfl := List.mem_singleton.1 hfile
  rfl

/-- A number and a word that is no style in the place of the style, both overridden. -/
theorem style_of_command_line_decides_two_disks :
    let options : CheckOptions := ⟨["d.slim.json"], some "s.toml", some .square, .text, none⟩
    let number : Settings := ⟨[("AttributesWrapper", ⟨true, [("style", .integer 3)]⟩)]⟩
    let word : Settings := ⟨[("AttributesWrapper", ⟨true, [("style", .string "x")]⟩)]⟩
    let disk := diskWith "linters.AttributesWrapper.style=3"
    let other := diskWith "linters.AttributesWrapper.style='x'"
    Overrides disk options false .square number ∧ Overrides other options false .square word ∧
      SameDocuments disk other options.paths ∧
      (Registry.linters number).outcome
        = .error (.invalidOption "AttributesWrapper" "style" "string") ∧
      (Registry.linters word).outcome = .error (.unknownStyle "x") ∧
      (reports .inOrder disk options false).outcome
        = (reports .inOrder other options false).outcome := by
  have hread : Settings.read? "linters.AttributesWrapper.style=3"
      = some ⟨[("AttributesWrapper", ⟨true, [("style", .integer 3)]⟩)]⟩ := by cbv
  have hother : Settings.read? "linters.AttributesWrapper.style='x'"
      = some ⟨[("AttributesWrapper", ⟨true, [("style", .string "x")]⟩)]⟩ := by cbv
  intro options number word disk other
  have hnumber : Overrides disk options false .square number :=
    ⟨rfl, outcome_loadSettings_diskWith hread, by decide⟩
  have hword : Overrides other options false .square word :=
    ⟨rfl, outcome_loadSettings_diskWith hother, by decide⟩
  have hdocuments : SameDocuments disk other options.paths := sameDocuments_diskWith _ _
  have hdisables : number.Disables AttributesWrapper.name ↔
      word.Disables AttributesWrapper.name := by
    simp [Settings.Disables, number, word, Settings.section?, AttributesWrapper.name]
  exact ⟨hnumber, hword, hdocuments, rfl, rfl,
    ((style_of_command_line_decides .square).2 disk other options options false false number word
      hnumber hword hdisables rfl hdocuments).1 .inOrder⟩

end Check
end WrapLint
