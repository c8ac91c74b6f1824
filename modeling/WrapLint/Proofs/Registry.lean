import WrapLint.Proofs.Settings.Override
import WrapLint.Registry

/-!
# Which linters settings ask for

**Results.**
* `outcome_linters`: the linters of settings, or the problem with them.
* `outcome_linters_eq_unknownLinter_iff`: when that is an unknown linter.
* `outcome_linters_setStyle`: a style that is set afterwards is the style of the linter, whatever
  stood there before.
-/

namespace WrapLint

/-- The settings have a section for the linter that switches it off. -/
def Settings.Disables (settings : Settings) (linter : String) : Prop :=
  ∃ own, settings.section? linter = some own ∧ own.enabled = false

theorem Settings.enabled_sectionOrStandard_iff (settings : Settings) (linter : String) :
    (settings.sectionOrStandard linter).enabled = true ↔ ¬ settings.Disables linter := by
  unfold sectionOrStandard Disables
  cases settings.section? linter with
  | none => simp [Section.standard]
  | some own => simp

namespace Registry

/-- The linters of settings: the first section that names no linter is a problem, then the style
of the check, unless it is switched off. -/
theorem outcome_linters (settings : Settings) :
    (linters settings).outcome =
      match unknownName? settings with
      | some name => .error (.unknownLinter name)
      | none =>
        if (settings.sectionOrStandard AttributesWrapper.name).enabled then
          (style (settings.sectionOrStandard AttributesWrapper.name)).map
            fun style => [AttributesWrapper.linter style]
        else .ok [] := by
  unfold linters
  cases unknownName? settings with
  | some name => rfl
  | none =>
      dsimp only
      split
      · cases style (settings.sectionOrStandard AttributesWrapper.name) <;> rfl
      · rfl

theorem eq_of_style_eq_error {own : Section} {problem : Problem} (h : style own = .error problem) :
    problem = .invalidOption AttributesWrapper.name "style" "string" ∨
      ∃ word, problem = .unknownStyle word := by
  unfold style at h
  cases hword : own.fetchString AttributesWrapper.name "style" Style.standard.keyword with
  | error cause =>
      rw [hword] at h
      cases h
      unfold Section.fetchString at hword
      split at hword
      · cases hword
      · cases hword
      · exact Or.inl (Except.error.inj hword).symm
  | ok word =>
      rw [hword] at h
      simp only [bind, Except.bind] at h
      split at h
      · exact Or.inr ⟨word, (Except.error.inj h).symm⟩
      · cases h

theorem eq_of_outcome_linters_eq_error {settings : Settings} {problem : Problem}
    (h : (linters settings).outcome = .error problem) :
    (∃ name, problem = .unknownLinter name) ∨
      problem = .invalidOption AttributesWrapper.name "style" "string" ∨
        ∃ word, problem = .unknownStyle word := by
  rw [outcome_linters] at h
  cases hname : unknownName? settings with
  | some name =>
      rw [hname] at h
      exact Or.inl ⟨name, (Except.error.inj h).symm⟩
  | none =>
      rw [hname] at h
      dsimp only at h
      split at h
      · cases hstyle : style (settings.sectionOrStandard AttributesWrapper.name) with
        | error cause =>
            rw [hstyle] at h
            cases h
            exact Or.inr (eq_of_style_eq_error hstyle)
        | ok chosen =>
            rw [hstyle] at h
            cases h
      · cases h

theorem outcome_linters_eq_unknownLinter_iff (settings : Settings) (name : String) :
    (linters settings).outcome = .error (.unknownLinter name) ↔
      unknownName? settings = some name := by
  rw [outcome_linters]
  cases unknownName? settings with
  | some other => simp
  | none =>
      simp only [reduceCtorEq, iff_false]
      split
      · cases hstyle : style (settings.sectionOrStandard AttributesWrapper.name) with
        | ok chosen => simp [Except.map]
        | error problem =>
            rcases eq_of_style_eq_error hstyle with rfl | ⟨word, rfl⟩ <;> simp [Except.map]
      · simp

theorem unknownName?_eq_none_iff (settings : Settings) :
    unknownName? settings = none ↔ ∀ entry ∈ settings.sections, entry.1 ∈ names := by
  simp [unknownName?]

theorem unknownName?_setOption (settings : Settings) {linter : String} (hlinter : linter ∈ names)
    (option text : String) :
    unknownName? (settings.setOption linter option text) = unknownName? settings := by
  unfold unknownName?
  rw [Settings.map_fst_sections_setOption]
  split
  · rfl
  · simp [List.find?_append, hlinter]

theorem style_setOption (own : Section) (chosen : Style) :
    style (own.setOption "style" chosen.keyword) = .ok chosen := by
  simp [style, Section.fetchString_setOption, Style.ofKeyword?_keyword, bind, Except.bind]

/-- The linters once a style is set: unless some section names no linter, the check in this
style, or none if it is switched off. -/
theorem outcome_linters_setStyle (settings : Settings) (chosen : Style) :
    (linters (settings.setOption AttributesWrapper.name "style" chosen.keyword)).outcome =
      match unknownName? settings with
      | some name => .error (.unknownLinter name)
      | none =>
        if (settings.sectionOrStandard AttributesWrapper.name).enabled then
          .ok [AttributesWrapper.linter chosen]
        else .ok [] := by
  rw [outcome_linters, unknownName?_setOption settings (by decide),
    Settings.sectionOrStandard_setOption, Section.enabled_setOption, style_setOption]
  rfl

end Registry
end WrapLint
