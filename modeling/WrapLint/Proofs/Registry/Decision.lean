import WrapLint.Proofs.Entries
import WrapLint.Proofs.Registry

/-!
# What settings come to

Settings end in linters or in a problem, and faults may stand in several places at once: names of
no linter, a check that is switched off, a style that is no text or no keyword.

**Results.**
* `outcome_linters_eq_iff_decides`: the order in which the faults come first (`Decides`).
* `outcome_linters_congr`: what the outcome depends on.
* `linters_decided`: both, for sections with other options and in another order.
-/

namespace WrapLint

namespace Settings

/-- Every section names the check. -/
def NamesOnlyCheck (settings : Settings) : Prop :=
  ∀ entry ∈ settings.sections, entry.1 = AttributesWrapper.name

/-- The first name of a section, in the order of the file, that is not the name of the check. -/
def FirstUnknown (settings : Settings) (name : String) : Prop :=
  name ≠ AttributesWrapper.name ∧
    ∃ before after, settings.sections.map Prod.fst = before ++ name :: after ∧
      ∀ other ∈ before, other = AttributesWrapper.name

/-- What the section of the check has as its style. -/
def styleValue? (settings : Settings) : Option Toml.Value :=
  (settings.section? AttributesWrapper.name).bind fun own => own.options.lookup "style"

/-- The part of a section that linters are made from. -/
def relevant (own : Section) : Bool × Option Toml.Value :=
  (own.enabled, own.options.lookup "style")

/-- The names of the sections in the order of the file, each with the part of its section that
linters are made from. -/
def outline (settings : Settings) : List (String × Bool × Option Toml.Value) :=
  settings.sections.map fun entry => (entry.1, relevant entry.2)

theorem map_fst_outline (settings : Settings) :
    settings.outline.map Prod.fst = settings.sections.map Prod.fst := by
  rw [outline, List.map_map]
  rfl

theorem lookup_outline (settings : Settings) (name : String) :
    settings.outline.lookup name = (settings.section? name).map relevant :=
  lookup_map_snd relevant name settings.sections

theorem lookup_style_sectionOrStandard (settings : Settings) :
    (settings.sectionOrStandard AttributesWrapper.name).options.lookup "style"
      = settings.styleValue? := by
  unfold sectionOrStandard styleValue?
  cases settings.section? AttributesWrapper.name <;> rfl

end Settings

namespace Registry

/-- What settings come to, cause by cause. -/
inductive Decides (settings : Settings) : Except Problem (List Linter) → Prop
  /-- A name that is unknown comes before everything else. -/
  | unknownLinter {name : String} (hname : settings.FirstUnknown name) :
      Decides settings (.error (.unknownLinter name))
  /-- If the check is switched off, its options do not matter. -/
  | switchedOff (hknown : settings.NamesOnlyCheck)
      (hoff : settings.Disables AttributesWrapper.name) : Decides settings (.ok [])
  | noText {value : Toml.Value} (hknown : settings.NamesOnlyCheck)
      (hon : ¬ settings.Disables AttributesWrapper.name)
      (hvalue : settings.styleValue? = some value) (htext : ∀ text, value ≠ .string text) :
      Decides settings (.error (.invalidOption AttributesWrapper.name "style" "string"))
  | unknownStyle {word : String} (hknown : settings.NamesOnlyCheck)
      (hon : ¬ settings.Disables AttributesWrapper.name)
      (hvalue : settings.styleValue? = some (.string word))
      (hword : word ∉ ["none", "round", "curly", "square", "any"]) :
      Decides settings (.error (.unknownStyle word))
  | chosen {style : Style} (hknown : settings.NamesOnlyCheck)
      (hon : ¬ settings.Disables AttributesWrapper.name)
      (hvalue : settings.styleValue? = some (.string style.keyword)) :
      Decides settings (.ok [⟨"AttributesWrapper", AttributesWrapper.run style⟩])
  | standard (hknown : settings.NamesOnlyCheck)
      (hon : ¬ settings.Disables AttributesWrapper.name) (hvalue : settings.styleValue? = none) :
      Decides settings (.ok [⟨"AttributesWrapper", AttributesWrapper.run .unwrapped⟩])

section Names

variable (settings : Settings)

theorem unknownName?_eq_some_iff (name : String) :
    unknownName? settings = some name ↔ settings.FirstUnknown name := by
  rw [unknownName?, List.find?_eq_some_iff_append]
  simp [Settings.FirstUnknown, names]

theorem unknownName?_eq_none_iff_namesOnlyCheck :
    unknownName? settings = none ↔ settings.NamesOnlyCheck := by
  rw [unknownName?_eq_none_iff]
  simp only [names, List.mem_singleton]
  rfl

end Names

section Words

theorem ofKeyword?_eq_none_iff (word : String) :
    Style.ofKeyword? word = none ↔ word ∉ ["none", "round", "curly", "square", "any"] := by
  rw [Style.ofKeyword?, List.find?_eq_none]
  simp [Style.all, Style.keyword, @eq_comm _ word]

/-- The style of a section by what stands in its place. -/
theorem style_eq (own : Section) :
    style own =
      match own.options.lookup "style" with
      | none => .ok .unwrapped
      | some (.string word) =>
        match Style.ofKeyword? word with
        | none => .error (.unknownStyle word)
        | some chosen => .ok chosen
      | some _ => .error (.invalidOption AttributesWrapper.name "style" "string") := by
  unfold style Section.fetchString
  cases own.options.lookup "style" with
  | none => rfl
  | some value => cases value <;> rfl

end Words

variable {settings : Settings}

theorem outcome_linters_of_namesOnlyCheck (hknown : settings.NamesOnlyCheck) :
    (linters settings).outcome =
      if (settings.sectionOrStandard AttributesWrapper.name).enabled then
        (style (settings.sectionOrStandard AttributesWrapper.name)).map
          fun style => [AttributesWrapper.linter style]
      else .ok [] := by
  rw [outcome_linters, (unknownName?_eq_none_iff_namesOnlyCheck settings).2 hknown]

theorem outcome_linters_of_not_disables (hknown : settings.NamesOnlyCheck)
    (hon : ¬ settings.Disables AttributesWrapper.name) :
    (linters settings).outcome =
      (style (settings.sectionOrStandard AttributesWrapper.name)).map
        fun style => [AttributesWrapper.linter style] := by
  rw [outcome_linters_of_namesOnlyCheck hknown,
    if_pos ((settings.enabled_sectionOrStandard_iff _).2 hon)]

theorem outcome_linters_of_decides {result : Except Problem (List Linter)}
    (h : Decides settings result) : (linters settings).outcome = result := by
  cases h with
  | unknownLinter hname =>
      rw [outcome_linters, (unknownName?_eq_some_iff settings _).2 hname]
  | switchedOff hknown hoff =>
      rw [outcome_linters_of_namesOnlyCheck hknown, if_neg]
      exact fun h => (settings.enabled_sectionOrStandard_iff _).1 h hoff
  | @noText value hknown hon hvalue htext =>
      rw [outcome_linters_of_not_disables hknown hon, style_eq,
        Settings.lookup_style_sectionOrStandard, hvalue]
      cases value with
      | string text => exact absurd rfl (htext text)
      | _ => rfl
  | unknownStyle hknown hon hvalue hword =>
      rw [outcome_linters_of_not_disables hknown hon, style_eq,
        Settings.lookup_style_sectionOrStandard, hvalue]
      simp only [(ofKeyword?_eq_none_iff _).2 hword, Except.map]
  | chosen hknown hon hvalue =>
      rw [outcome_linters_of_not_disables hknown hon, style_eq,
        Settings.lookup_style_sectionOrStandard, hvalue]
      simp only [Style.ofKeyword?_keyword]
      rfl
  | standard hknown hon hvalue =>
      rw [outcome_linters_of_not_disables hknown hon, style_eq,
        Settings.lookup_style_sectionOrStandard, hvalue]
      rfl

/-- Settings always come to something. -/
theorem exists_decides (settings : Settings) : ∃ result, Decides settings result := by
  cases hname : unknownName? settings with
  | some name => exact ⟨_, .unknownLinter ((unknownName?_eq_some_iff settings name).1 hname)⟩
  | none =>
      have hknown := (unknownName?_eq_none_iff_namesOnlyCheck settings).1 hname
      by_cases hoff : settings.Disables AttributesWrapper.name
      · exact ⟨_, .switchedOff hknown hoff⟩
      · cases hvalue : settings.styleValue? with
        | none => exact ⟨_, .standard hknown hoff hvalue⟩
        | some value =>
            cases value with
            | string word =>
                cases hstyle : Style.ofKeyword? word with
                | none =>
                    have hword := (ofKeyword?_eq_none_iff word).1 hstyle
                    exact ⟨_, .unknownStyle hknown hoff hvalue hword⟩
                | some style =>
                    obtain rfl := Style.keyword_of_ofKeyword? hstyle
                    exact ⟨_, .chosen hknown hoff hvalue⟩
            | _ => exact ⟨_, .noText hknown hoff hvalue nofun⟩

theorem outcome_linters_eq_iff_decides {result : Except Problem (List Linter)} :
    (linters settings).outcome = result ↔ Decides settings result := by
  constructor
  · rintro rfl
    obtain ⟨result, hresult⟩ := exists_decides settings
    rwa [outcome_linters_of_decides hresult]
  · exact outcome_linters_of_decides

section Dependence

variable {other : Settings}

theorem disables_congr {linter : String}
    (h : other.outline.lookup linter = settings.outline.lookup linter) :
    other.Disables linter ↔ settings.Disables linter := by
  rw [Settings.lookup_outline, Settings.lookup_outline] at h
  unfold Settings.Disables
  cases hother : other.section? linter <;> cases hown : settings.section? linter <;>
    simp_all [Settings.relevant]

theorem styleValue?_congr
    (h : other.outline.lookup AttributesWrapper.name
      = settings.outline.lookup AttributesWrapper.name) :
    other.styleValue? = settings.styleValue? := by
  rw [Settings.lookup_outline, Settings.lookup_outline] at h
  have hsnd := congrArg (Option.bind · Prod.snd) h
  simpa [Option.bind_map, Settings.relevant, Settings.styleValue?, Function.comp_def] using hsnd

/-- The outcome depends on the first unknown name, and on the section of the check, of which only
the style and whether it is switched off matter. -/
theorem outcome_linters_congr (hname : unknownName? other = unknownName? settings)
    (h : other.outline.lookup AttributesWrapper.name
      = settings.outline.lookup AttributesWrapper.name) :
    (linters other).outcome = (linters settings).outcome := by
  have henabled : (other.sectionOrStandard AttributesWrapper.name).enabled
      = (settings.sectionOrStandard AttributesWrapper.name).enabled := by
    rw [Bool.eq_iff_iff, Settings.enabled_sectionOrStandard_iff,
      Settings.enabled_sectionOrStandard_iff, disables_congr h]
  rw [outcome_linters, outcome_linters, hname, henabled, style_eq, style_eq,
    Settings.lookup_style_sectionOrStandard, Settings.lookup_style_sectionOrStandard,
    styleValue?_congr h]

theorem namesOnlyCheck_congr_of_perm (h : other.outline.Perm settings.outline) :
    other.NamesOnlyCheck ↔ settings.NamesOnlyCheck := by
  have hnames := h.map Prod.fst
  rw [Settings.map_fst_outline, Settings.map_fst_outline] at hnames
  have hall : ∀ any : Settings, any.NamesOnlyCheck ↔
      ∀ name ∈ any.sections.map Prod.fst, name = AttributesWrapper.name := by
    intro any
    rw [List.forall_mem_map]
    rfl
  rw [hall, hall]
  simp only [hnames.mem_iff]

end Dependence

/-- Settings come to exactly what `Decides` says.  No other option matters, and the order of the
sections does not either, except that it decides which unknown name is the first. -/
theorem linters_decided (settings : Settings) :
    (∀ result, (linters settings).outcome = result ↔ Decides settings result) ∧
      (∀ other : Settings, other.outline = settings.outline →
        (linters other).outcome = (linters settings).outcome) ∧
      ∀ other : Settings, (settings.sections.map Prod.fst).Nodup →
        other.outline.Perm settings.outline →
        (linters other).outcome = (linters settings).outcome ∨
          ∃ name otherName, (linters settings).outcome = .error (.unknownLinter name) ∧
            (linters other).outcome = .error (.unknownLinter otherName) := by
  refine ⟨fun result => outcome_linters_eq_iff_decides, fun other h => ?_,
    fun other hnodup hperm => ?_⟩
  · refine outcome_linters_congr ?_ (by rw [h])
    have hnames := congrArg (List.map Prod.fst) h
    rw [Settings.map_fst_outline, Settings.map_fst_outline] at hnames
    rw [unknownName?, unknownName?, hnames]
  · have hknown := namesOnlyCheck_congr_of_perm hperm
    rw [← unknownName?_eq_none_iff_namesOnlyCheck, ← unknownName?_eq_none_iff_namesOnlyCheck]
      at hknown
    cases hname : unknownName? settings with
    | none =>
        rw [← Settings.map_fst_outline] at hnodup
        refine Or.inl (outcome_linters_congr ?_ ?_)
        · rw [hname, hknown.2 hname]
        · exact (lookup_eq_of_perm hperm.symm hnodup _).symm
    | some name =>
        have hother : unknownName? other ≠ none := fun hnone => by
          rw [hknown.1 hnone] at hname
          cases hname
        obtain ⟨otherName, hotherName⟩ := Option.ne_none_iff_exists'.1 hother
        exact Or.inr ⟨name, otherName, (outcome_linters_eq_unknownLinter_iff _ _).2 hname,
          (outcome_linters_eq_unknownLinter_iff _ _).2 hotherName⟩

/-- Two unknown names and a style that is a number: the first name is the problem, and which one
that is depends on the order. -/
theorem linters_decided_two_orders :
    let check : String × Section := ("AttributesWrapper", ⟨true, [("style", .integer 3)]⟩)
    let settings : Settings := ⟨[check, ("Zeta", .standard), ("Alpha", .standard)]⟩
    let other : Settings :=
      ⟨[("Alpha", ⟨true, [("depth", .integer 1)]⟩), ("Zeta", .standard), check]⟩
    (settings.sections.map Prod.fst).Nodup ∧ other.outline.Perm settings.outline ∧
      Decides settings (.error (.unknownLinter "Zeta")) ∧
      (linters other).outcome = .error (.unknownLinter "Alpha") ∧
      ((linters other).outcome = (linters settings).outcome ∨
        ∃ name otherName, (linters settings).outcome = .error (.unknownLinter name) ∧
          (linters other).outcome = .error (.unknownLinter otherName)) := by
  intro check settings other
  have hnodup : (settings.sections.map Prod.fst).Nodup := by decide
  have hperm : other.outline.Perm settings.outline := List.reverse_perm settings.outline
  exact ⟨hnodup, hperm, ((linters_decided settings).1 _).1 rfl, rfl,
    (linters_decided settings).2.2 other hnodup hperm⟩

end Registry
end WrapLint
