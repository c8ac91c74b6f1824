import Mathlib.Data.List.Nodup
import Mathlib.Data.Option.Basic
import WrapLint.Proofs.Settings.Override

/-!
# Setting several options, one after another

Each step sets one option of one linter.  A section or an option that is not there yet is added at
the end, so the order of the settings tells when something was set first, and the values tell what
was set last.

**Results.**
* `HasDistinctKeys.setOptions`: keys stay distinct, from one step to all of them.
* `sectionOrStandard_setOptions`: a section afterwards is told by the steps on its linter alone.
* `Section.map_fst_setOptions`, `map_fst_sections_setOptions`: the keys, in their order.
* `setOptions_overrides`: what is found in the settings afterwards (`OverriddenBy`).
-/

namespace WrapLint

/-- An option of a linter and the text that it is set to. -/
structure Assignment where
  linter : String
  option : String
  text : String

namespace Assignment

/-- Two assignments set the same option. -/
def Meets (one other : Assignment) : Prop :=
  one.linter = other.linter ∧ one.option = other.option

/-- The assignments to options of this linter. -/
def onLinter (linter : String) (steps : List Assignment) : List Assignment :=
  steps.filter fun step => step.linter == linter

theorem onLinter_cons_self {step : Assignment} {linter : String} (h : step.linter = linter)
    (steps : List Assignment) :
    onLinter linter (step :: steps) = step :: onLinter linter steps := by
  simp [onLinter, h]

theorem onLinter_cons_of_ne {step : Assignment} {linter : String} (h : step.linter ≠ linter)
    (steps : List Assignment) : onLinter linter (step :: steps) = onLinter linter steps := by
  simp [onLinter, h]

end Assignment

open Assignment (onLinter)

section Keys

/-- The keys that come to these when others are set in this order, each when it is first set. -/
def addedKeys (present set : List String) : List String :=
  (set.filter fun key => key ∉ present).eraseDups

theorem addedKeys_cons_of_mem {present : List String} {key : String} (h : key ∈ present)
    (set : List String) : addedKeys present (key :: set) = addedKeys present set := by
  simp [addedKeys, h]

theorem addedKeys_cons_of_not_mem {present : List String} {key : String} (h : key ∉ present)
    (set : List String) :
    addedKeys present (key :: set) = key :: addedKeys (present ++ [key]) set := by
  have hfilter : (set.filter fun other => other ∉ present).filter (fun other => !other == key)
      = set.filter fun other => other ∉ present ++ [key] := by
    rw [List.filter_filter]
    refine List.filter_congr fun other _ => ?_
    grind
  rw [addedKeys, List.filter_cons_of_pos (by simpa using h), List.eraseDups_cons, hfilter]
  rfl

/-- One key is set, and then the others. -/
theorem append_addedKeys_cons (present : List String) (key : String) (set : List String) :
    present ++ addedKeys present (key :: set) =
      (if key ∈ present then present else present ++ [key]) ++
        addedKeys (if key ∈ present then present else present ++ [key]) set := by
  split
  · rename_i h
    rw [addedKeys_cons_of_mem h]
  · rename_i h
    rw [addedKeys_cons_of_not_mem h, List.append_assoc]
    rfl

end Keys

section Entries

variable {α : Type} {key : String} {value : α} {entries : List (String × α)}

theorem nodup_map_fst_setEntry (h : (entries.map Prod.fst).Nodup) :
    ((setEntry key value entries).map Prod.fst).Nodup := by
  rw [map_fst_setEntry]
  split
  · exact h
  · rename_i hkey
    exact List.Nodup.append h (List.nodup_singleton key) (by simpa using hkey)

theorem eq_or_mem_of_mem_setEntry {entry : String × α} (h : entry ∈ setEntry key value entries) :
    entry = (key, value) ∨ entry ∈ entries := by
  fun_induction setEntry key value entries <;> grind

end Entries

namespace Section

/-- The section with these options set, one after another. -/
def setOptions (own : Section) (steps : List Assignment) : Section :=
  steps.foldl (fun own step => own.setOption step.option step.text) own

@[simp] theorem setOptions_nil (own : Section) : own.setOptions [] = own :=
  rfl

theorem setOptions_cons (own : Section) (step : Assignment) (steps : List Assignment) :
    own.setOptions (step :: steps) = (own.setOption step.option step.text).setOptions steps :=
  rfl

theorem setOptions_append (own : Section) (steps more : List Assignment) :
    own.setOptions (steps ++ more) = (own.setOptions steps).setOptions more :=
  List.foldl_append

theorem lookup_setOption (own : Section) (option text other : String) :
    (own.setOption option text).options.lookup other =
      if other = option then some (.string text) else own.options.lookup other :=
  lookup_setEntry option _ own.options other

@[simp] theorem enabled_setOptions (own : Section) (steps : List Assignment) :
    (own.setOptions steps).enabled = own.enabled := by
  induction steps generalizing own with
  | nil => rfl
  | cons step steps ih => rw [setOptions_cons, ih, enabled_setOption]

theorem lookup_setOptions_of_untouched {steps : List Assignment} {option : String}
    (h : ∀ step ∈ steps, step.option ≠ option) (own : Section) :
    (own.setOptions steps).options.lookup option = own.options.lookup option := by
  induction steps generalizing own with
  | nil => rfl
  | cons step steps ih =>
      rw [List.forall_mem_cons] at h
      rw [setOptions_cons, ih h.2, lookup_setOption, if_neg h.1.symm]

/-- The last text that an option is set to stays. -/
theorem lookup_setOptions_of_last {step : Assignment} {rest : List Assignment}
    (h : ∀ other ∈ rest, other.option ≠ step.option) (own : Section) (before : List Assignment) :
    (own.setOptions (before ++ step :: rest)).options.lookup step.option
      = some (.string step.text) := by
  rw [setOptions_append, setOptions_cons, lookup_setOptions_of_untouched h, lookup_setOption,
    if_pos rfl]

theorem map_fst_setOptions (own : Section) (steps : List Assignment) :
    (own.setOptions steps).options.map Prod.fst =
      own.options.map Prod.fst ++
        addedKeys (own.options.map Prod.fst) (steps.map Assignment.option) := by
  induction steps generalizing own with
  | nil => simp [addedKeys]
  | cons step steps ih =>
      have hstep : (own.setOption step.option step.text).options.map Prod.fst =
          if step.option ∈ own.options.map Prod.fst then own.options.map Prod.fst
          else own.options.map Prod.fst ++ [step.option] :=
        map_fst_setEntry step.option _ own.options
      rw [setOptions_cons, ih, hstep, List.map_cons, append_addedKeys_cons]

theorem fetchString_of_lookup {own : Section} {option text : String}
    (h : own.options.lookup option = some (.string text)) (linter fallback : String) :
    own.fetchString linter option fallback = .ok text := by
  rw [fetchString, h]

/-- Nothing that can be looked up tells two sections apart. -/
structure Agrees (own other : Section) : Prop where
  enabled : own.enabled = other.enabled
  option : ∀ option, own.options.lookup option = other.options.lookup option
  fetched : ∀ linter option fallback,
    own.fetchString linter option fallback = other.fetchString linter option fallback

theorem agrees_of_lookup {own other : Section} (henabled : own.enabled = other.enabled)
    (h : ∀ option, own.options.lookup option = other.options.lookup option) : own.Agrees other :=
  ⟨henabled, h, fun _ option _ => by rw [fetchString, fetchString, h option]⟩

theorem Agrees.refl (own : Section) : own.Agrees own :=
  ⟨rfl, fun _ => rfl, fun _ _ _ => rfl⟩

theorem agrees_setOption_swap {option other : String} (h : option ≠ other) (own : Section)
    (text otherText : String) :
    ((own.setOption option text).setOption other otherText).Agrees
      ((own.setOption other otherText).setOption option text) := by
  refine agrees_of_lookup rfl fun key => ?_
  simp only [lookup_setOption]
  split_ifs with hkey hkey'
  · exact absurd (hkey'.symm.trans hkey) h
  all_goals rfl

end Section

namespace Settings

variable {settings : Settings}

/-- The settings with these options set, one after another. -/
def setOptions (settings : Settings) (steps : List Assignment) : Settings :=
  steps.foldl (fun settings step => settings.setOption step.linter step.option step.text) settings

theorem setOptions_cons (settings : Settings) (step : Assignment) (steps : List Assignment) :
    settings.setOptions (step :: steps) =
      (settings.setOption step.linter step.option step.text).setOptions steps :=
  rfl

/-- No two sections have one name, and no two options of a section one key. -/
structure HasDistinctKeys (settings : Settings) : Prop where
  names : (settings.sections.map Prod.fst).Nodup
  options : ∀ entry ∈ settings.sections, (entry.2.options.map Prod.fst).Nodup

theorem HasDistinctKeys.options_sectionOrStandard (h : settings.HasDistinctKeys)
    (linter : String) : ((settings.sectionOrStandard linter).options.map Prod.fst).Nodup := by
  unfold sectionOrStandard section?
  cases hown : settings.sections.lookup linter with
  | none => exact List.nodup_nil
  | some own =>
      obtain ⟨before, after, hsections, -⟩ := List.lookup_eq_some_iff.1 hown
      exact h.options (linter, own) (by simp [hsections])

theorem HasDistinctKeys.setOption (h : settings.HasDistinctKeys) (linter option text : String) :
    (settings.setOption linter option text).HasDistinctKeys where
  names := nodup_map_fst_setEntry h.names
  options := by
    intro entry hentry
    rcases eq_or_mem_of_mem_setEntry hentry with rfl | hmem
    · exact nodup_map_fst_setEntry (h.options_sectionOrStandard linter)
    · exact h.options entry hmem

theorem HasDistinctKeys.setOptions (h : settings.HasDistinctKeys) (steps : List Assignment) :
    (settings.setOptions steps).HasDistinctKeys := by
  induction steps generalizing settings with
  | nil => exact h
  | cons step steps ih => exact ih (h.setOption step.linter step.option step.text)

theorem map_fst_sections_setOptions (settings : Settings) (steps : List Assignment) :
    (settings.setOptions steps).sections.map Prod.fst =
      settings.sections.map Prod.fst ++
        addedKeys (settings.sections.map Prod.fst) (steps.map Assignment.linter) := by
  induction steps generalizing settings with
  | nil => simp [setOptions, addedKeys]
  | cons step steps ih =>
      rw [setOptions_cons, ih, map_fst_sections_setOption, List.map_cons, append_addedKeys_cons]

theorem section?_setOptions_of_untouched {steps : List Assignment} {linter : String}
    (h : ∀ step ∈ steps, step.linter ≠ linter) (settings : Settings) :
    (settings.setOptions steps).section? linter = settings.section? linter := by
  induction steps generalizing settings with
  | nil => rfl
  | cons step steps ih =>
      rw [List.forall_mem_cons] at h
      rw [setOptions_cons, ih h.2, section?_setOption, if_neg h.1.symm]

theorem sectionOrStandard_setOptions (settings : Settings) (steps : List Assignment)
    (linter : String) :
    (settings.setOptions steps).sectionOrStandard linter =
      (settings.sectionOrStandard linter).setOptions (onLinter linter steps) := by
  induction steps generalizing settings with
  | nil => rfl
  | cons step steps ih =>
      rw [setOptions_cons, ih]
      by_cases h : step.linter = linter
      · subst h
        rw [Assignment.onLinter_cons_self rfl, sectionOrStandard_setOption,
          Section.setOptions_cons]
      · rw [Assignment.onLinter_cons_of_ne h, sectionOrStandard, sectionOrStandard,
          Settings.section?_setOption, if_neg (Ne.symm h)]

/-- A section is there afterwards if it was there before or if a step was on its linter. -/
theorem isSome_section?_setOptions (settings : Settings) (steps : List Assignment)
    (linter : String) :
    ((settings.setOptions steps).section? linter).isSome = true ↔
      (settings.section? linter).isSome = true ∨ ∃ step ∈ steps, step.linter = linter := by
  induction steps generalizing settings with
  | nil => simp [setOptions]
  | cons step steps ih =>
      rw [setOptions_cons, ih, section?_setOption, List.exists_mem_cons_iff]
      split
      · rename_i h
        simp [h]
      · rename_i h
        simp [Ne.symm h]

/-- A section that is there afterwards. -/
theorem section?_setOptions_eq_some (steps : List Assignment) {linter : String}
    (h : (settings.section? linter).isSome = true ∨ ∃ step ∈ steps, step.linter = linter) :
    (settings.setOptions steps).section? linter =
      some ((settings.sectionOrStandard linter).setOptions (onLinter linter steps)) := by
  obtain ⟨now, hnow⟩ :=
    Option.isSome_iff_exists.1 ((isSome_section?_setOptions settings steps linter).2 h)
  have hown := sectionOrStandard_setOptions settings steps linter
  rw [sectionOrStandard, hnow, Option.getD_some] at hown
  rw [hnow, hown]

/-- What some steps leave of settings, and what they add to them. -/
structure OverriddenBy (settings : Settings) (steps : List Assignment) (after : Settings) :
    Prop where
  /-- Sections keep their places.  New ones come after them, in the order in which an option of
  theirs is first set. -/
  names : after.sections.map Prod.fst =
    settings.sections.map Prod.fst ++
      addedKeys (settings.sections.map Prod.fst) (steps.map Assignment.linter)
  /-- A section runs its linter or does not, as before, and its options keep their places, with
  new ones after them in the order in which they are first set. -/
  present : ∀ linter own, settings.section? linter = some own →
    ∃ now, after.section? linter = some now ∧ now.enabled = own.enabled ∧
      now.options.map Prod.fst = own.options.map Prod.fst ++
        addedKeys (own.options.map Prod.fst) ((onLinter linter steps).map Assignment.option)
  /-- A new section runs its linter and has the options that are set. -/
  added : ∀ linter, settings.section? linter = none → (∃ step ∈ steps, step.linter = linter) →
    ∃ now, after.section? linter = some now ∧ now.enabled = true ∧
      now.options.map Prod.fst = ((onLinter linter steps).map Assignment.option).eraseDups
  /-- The last step on an option gives its text. -/
  written : ∀ before step rest, steps = before ++ step :: rest →
    (∀ other ∈ rest, ¬ other.Meets step) →
    ∃ now, after.section? step.linter = some now ∧
      now.options.lookup step.option = some (.string step.text) ∧
      ∀ fallback, now.fetchString step.linter step.option fallback = .ok step.text
  /-- An option that no step is on keeps its value, or is still missing. -/
  kept : ∀ linter option, (∀ step ∈ steps, ¬ (step.linter = linter ∧ step.option = option)) →
    (after.sectionOrStandard linter).options.lookup option =
      (settings.sectionOrStandard linter).options.lookup option
  /-- A linter that no step is on keeps its section, or still has none. -/
  untouched : ∀ linter, (∀ step ∈ steps, step.linter ≠ linter) →
    after.section? linter = settings.section? linter

theorem overriddenBy_setOptions (settings : Settings) (steps : List Assignment) :
    settings.OverriddenBy steps (settings.setOptions steps) where
  names := map_fst_sections_setOptions settings steps
  present := by
    intro linter own hown
    refine ⟨_, section?_setOptions_eq_some steps (Or.inl (by rw [hown]; rfl)), ?_, ?_⟩
    · rw [Section.enabled_setOptions, sectionOrStandard, hown, Option.getD_some]
    · rw [Section.map_fst_setOptions, sectionOrStandard, hown, Option.getD_some]
  added := by
    intro linter hnone hstep
    refine ⟨_, section?_setOptions_eq_some steps (Or.inr hstep), ?_, ?_⟩
    · rw [Section.enabled_setOptions, sectionOrStandard, hnone]
      rfl
    · rw [Section.map_fst_setOptions, sectionOrStandard, hnone]
      simp [Section.standard, addedKeys, List.filter_true]
  written := by
    intro before step rest hsteps hlast
    have hthere : ∃ other ∈ steps, other.linter = step.linter := ⟨step, by simp [hsteps], rfl⟩
    have hown : onLinter step.linter steps =
        onLinter step.linter before ++ step :: onLinter step.linter rest := by
      simp [onLinter, hsteps]
    have hrest : ∀ other ∈ onLinter step.linter rest, other.option ≠ step.option := by
      intro other hother heq
      obtain ⟨hmem, hlinter⟩ := List.mem_filter.1 hother
      exact hlast other hmem ⟨by simpa using hlinter, heq⟩
    have hlookup := Section.lookup_setOptions_of_last hrest
      (settings.sectionOrStandard step.linter) (onLinter step.linter before)
    rw [← hown] at hlookup
    exact ⟨_, section?_setOptions_eq_some steps (Or.inr hthere), hlookup,
      Section.fetchString_of_lookup hlookup step.linter⟩
  kept := by
    intro linter option huntouched
    rw [sectionOrStandard_setOptions]
    refine Section.lookup_setOptions_of_untouched ?_ _
    intro step hstep heq
    obtain ⟨hmem, hlinter⟩ := List.mem_filter.1 hstep
    exact huntouched step hmem ⟨by simpa using hlinter, heq⟩
  untouched := fun linter h => section?_setOptions_of_untouched h settings

theorem rel_section?_setOptions_swap {one other : Assignment} (h : ¬ one.Meets other)
    (settings : Settings) (linter : String) :
    Option.Rel Section.Agrees ((settings.setOptions [one, other]).section? linter)
      ((settings.setOptions [other, one]).section? linter) := by
  by_cases hthere : (settings.section? linter).isSome = true ∨
      ∃ step ∈ [one, other], step.linter = linter
  · have hswapped : (settings.section? linter).isSome = true ∨
        ∃ step ∈ [other, one], step.linter = linter := by
      simpa [or_comm] using hthere
    rw [section?_setOptions_eq_some _ hthere, section?_setOptions_eq_some _ hswapped]
    refine .some ?_
    -- Only if both are on this linter does their order show, and then they set two options.
    by_cases hone : one.linter = linter <;> by_cases hother : other.linter = linter
    · have hoptions : one.option ≠ other.option := fun heq => h ⟨hone.trans hother.symm, heq⟩
      simpa [onLinter, hone, hother, Section.setOptions] using
        Section.agrees_setOption_swap hoptions (settings.sectionOrStandard linter) _ _
    all_goals simpa [onLinter, hone, hother] using Section.Agrees.refl _
  · have huntouched : ∀ step ∈ [one, other], step.linter ≠ linter := fun step hstep heq =>
      hthere (Or.inr ⟨step, hstep, heq⟩)
    have hswapped : ∀ step ∈ [other, one], step.linter ≠ linter := by
      simpa [and_comm] using huntouched
    rw [section?_setOptions_of_untouched huntouched, section?_setOptions_of_untouched hswapped]
    cases settings.section? linter with
    | none => exact .none
    | some own => exact .some (.refl own)

/-- However many options are set, one after another: keys stay distinct, what was last set is read
back, and everything else is as it was and where it was (`OverriddenBy`).  Two steps on different
options can change places: nothing that is looked up afterwards tells which came first. -/
theorem setOptions_overrides (settings : Settings) (steps : List Assignment) :
    (settings.HasDistinctKeys → (settings.setOptions steps).HasDistinctKeys) ∧
      settings.OverriddenBy steps (settings.setOptions steps) ∧
      ∀ one other : Assignment, ¬ one.Meets other → ∀ linter,
        Option.Rel Section.Agrees ((settings.setOptions [one, other]).section? linter)
          ((settings.setOptions [other, one]).section? linter) :=
  ⟨fun h => h.setOptions steps, overriddenBy_setOptions settings steps,
    fun _ _ h linter => rel_section?_setOptions_swap h settings linter⟩

/-- A section that is switched off stays so although an option is named like the switch, an option
that was no text becomes one in its place, and a section comes to the end. -/
theorem setOptions_overrides_four_steps :
    let settings : Settings := ⟨[("AttributesWrapper", ⟨false, [("style", .integer 3)]⟩)]⟩
    let first : Assignment := ⟨"AttributesWrapper", "enabled", "true"⟩
    let second : Assignment := ⟨"Zeta", "depth", "1"⟩
    let steps := [first, second, ⟨"AttributesWrapper", "style", "round"⟩,
      ⟨"AttributesWrapper", "style", "any"⟩]
    settings.HasDistinctKeys ∧ ¬ first.Meets second ∧
      settings.setOptions steps =
        ⟨[("AttributesWrapper", ⟨false, [("style", .string "any"), ("enabled", .string "true")]⟩),
          ("Zeta", ⟨true, [("depth", .string "1")]⟩)]⟩ ∧
      (settings.setOptions steps).HasDistinctKeys ∧
      Option.Rel Section.Agrees ((settings.setOptions [first, second]).section? "Zeta")
        ((settings.setOptions [second, first]).section? "Zeta") := by
  intro settings first second steps
  have hkeys : settings.HasDistinctKeys := ⟨by decide, by decide⟩
  have hmeets : ¬ first.Meets second := fun h => absurd h.1 (by decide)
  exact ⟨hkeys, hmeets, rfl, (setOptions_overrides settings steps).1 hkeys,
    (setOptions_overrides settings steps).2.2 first second hmeets "Zeta"⟩

end Settings
end WrapLint
