import Mathlib
import WrapLint.Proofs.Settings.OptionValues
import WrapLint.Proofs.Traversal

/-!
# The shape of settings files

The document holds a table of sections under its only key.  In a section one key switches the linter
on or off, and every other entry is an option.

**Results.**
* `Section.ofEntries?_eq_some_iff`: the section that the entries of a table give.
* `decodeAll?_eq_some_iff`: the sections that the entries of a table give.
* `ofEntries?_eq_some_iff`: the settings that a document gives.
* `shape_does_not_decide`: a document of the right shape is refused for a table that begins with the
  reserved key.
* `ofEntries?_by_shape`: which documents are settings, and which settings they are.
-/

namespace WrapLint

open Toml (Value)

/-- The entries of a table, as they stand in a document. -/
abbrev Table := List (String × Value)

namespace Section

/-- What stands under the switch, if anything does, is a boolean. -/
def Shaped (entries : Table) : Prop :=
  ∀ value, entries.lookup "enabled" = some value → ∃ enabled, value = .boolean enabled

/-- The entries of a section that are options. -/
def optionsOf (entries : Table) : Table :=
  entries.filter fun entry => entry.1 != "enabled"

/-- The option has the key of the entry and its value, which is kept as it stands, save that a table
in it that spells a date-time is that date-time. -/
def Keeps (entry option : String × Value) : Prop :=
  option.1 = entry.1 ∧ option.2 = entry.2.withDatetimes ∧
    (entry.2.Unreserved → option.2 = entry.2)

/-- The section says what the entries say: its switch is the boolean there, on if there is none, and
its options are the other entries in their order. -/
structure GivenBy (own : Section) (entries : Table) : Prop where
  enabled : entries.lookup "enabled" = some (.boolean own.enabled) ∨
    entries.lookup "enabled" = none ∧ own.enabled = true
  options : List.Forall₂ Keeps (optionsOf entries) own.options

theorem decodeEnabled?_eq_some_iff {found : Option Value} {enabled : Bool} :
    decodeEnabled? found = some enabled ↔
      found = some (.boolean enabled) ∨ found = none ∧ enabled = true := by
  cases found with
  | none => simp [decodeEnabled?, eq_comm]
  | some value => cases value <;> simp [decodeEnabled?]

theorem keeps_iff {entry option : String × Value} :
    Keeps entry option ↔ option = (entry.1, entry.2.withDatetimes) := by
  constructor
  · rintro ⟨hkey, hvalue, -⟩
    exact Prod.ext hkey hvalue
  · rintro rfl
    exact ⟨rfl, rfl, Value.withDatetimes_of_unreserved⟩

theorem forall₂_keeps_iff {entries options : Table} :
    List.Forall₂ Keeps entries options ↔ options = Value.withDatetimesIn entries := by
  rw [Value.withDatetimesIn_eq_map, ← List.forall₂_eq_eq_eq, List.forall₂_map_right_iff]
  constructor
  · exact fun h => (h.imp fun _ _ => keeps_iff.1).flip
  · exact fun h => h.flip.imp fun _ _ => keeps_iff.2

theorem ofEntries?_eq_some_iff {entries : Table} {own : Section} :
    ofEntries? entries = some own ↔
      (∀ option ∈ optionsOf entries, option.2.Legible) ∧ own.GivenBy entries := by
  rw [ofEntries?]
  simp only [Option.bind_eq_bind, Option.bind_eq_some_iff, decodeEnabled?_eq_some_iff,
    Value.optionEntries?_eq_some_iff, Option.some.injEq]
  constructor
  · rintro ⟨enabled, henabled, _, ⟨hlegible, rfl⟩, rfl⟩
    exact ⟨hlegible, henabled, forall₂_keeps_iff.2 rfl⟩
  · rintro ⟨hlegible, henabled, hoptions⟩
    exact ⟨own.enabled, henabled, own.options, ⟨hlegible, forall₂_keeps_iff.1 hoptions⟩, rfl⟩

theorem exists_givenBy_iff {entries : Table} :
    (∃ own : Section, own.GivenBy entries) ↔ Shaped entries := by
  constructor
  · rintro ⟨own, henabled, -⟩ value hvalue
    rw [hvalue] at henabled
    rcases henabled with h | ⟨h, -⟩
    · exact ⟨own.enabled, Option.some.inj h⟩
    · cases h
  · intro h
    cases hvalue : entries.lookup "enabled" with
    | none => exact ⟨⟨true, _⟩, Or.inr ⟨hvalue, rfl⟩, forall₂_keeps_iff.2 rfl⟩
    | some value =>
        obtain ⟨enabled, rfl⟩ := h value hvalue
        exact ⟨⟨enabled, _⟩, Or.inl hvalue, forall₂_keeps_iff.2 rfl⟩

end Section

namespace Settings

/-- The entry is a section: a table with a boolean as its switch, if it has one. -/
def SectionShaped (entry : String × Value) : Prop :=
  ∃ own, entry.2 = .table own ∧ Section.Shaped own

/-- The section with this name is the one that the entry gives. -/
def SectionGivenBy (entry : String × Value) (named : String × Section) : Prop :=
  named.1 = entry.1 ∧ ∃ own, entry.2 = .table own ∧ named.2.GivenBy own

/-- In the options of the section every table that begins with the reserved key spells a
date-time. -/
def SectionLegible (entry : String × Value) : Prop :=
  ∀ own, entry.2 = .table own → ∀ option ∈ Section.optionsOf own, option.2.Legible

/-- The only key is that of the sections, and a table of sections stands there if it is used. -/
structure Shaped (entries : Table) : Prop where
  keys : ∀ entry ∈ entries, entry.1 = "linters"
  sections : ∀ value, entries.lookup "linters" = some value →
    ∃ sections, value = .table sections ∧ ∀ entry ∈ sections, SectionShaped entry

/-- What is said of every section of the document. -/
def EverySection (holds : String × Value → Prop) (entries : Table) : Prop :=
  ∀ sections, entries.lookup "linters" = some (.table sections) → ∀ entry ∈ sections, holds entry

/-- No section is a date-time. -/
def NoDatetime (entries : Table) : Prop :=
  EverySection (fun entry => ∀ text, entry.2 ≠ .datetime text) entries

/-- The settings have the sections of the document in their order, and none if there is no table of
sections. -/
structure GivenBy (settings : Settings) (entries : Table) : Prop where
  none : entries.lookup "linters" = .none → settings.sections = []
  table : ∀ sections, entries.lookup "linters" = some (.table sections) →
    List.Forall₂ SectionGivenBy sections settings.sections

theorem decode?_eq_some_iff {entry : String × Value} (hdate : ∀ text, entry.2 ≠ .datetime text)
    {own : Section} :
    Section.decode? entry.2 = some own ↔
      SectionLegible entry ∧ SectionGivenBy entry (entry.1, own) := by
  obtain ⟨name, value⟩ := entry
  cases value with
  | table entries =>
      rw [Section.decode?, Section.ofEntries?_eq_some_iff]
      constructor
      · rintro ⟨hlegible, hgiven⟩
        exact ⟨by rintro _ ⟨⟩; exact hlegible, rfl, entries, rfl, hgiven⟩
      · rintro ⟨hlegible, -, _, ⟨⟩, hgiven⟩
        exact ⟨hlegible entries rfl, hgiven⟩
  | datetime text => exact absurd rfl (hdate text)
  | _ => simp [Section.decode?, SectionGivenBy]

theorem decodeAll?_eq_some_iff {entries : Table} {sections : List (String × Section)}
    (hdates : ∀ entry ∈ entries, ∀ text, entry.2 ≠ .datetime text) :
    Section.decodeAll? entries = some sections ↔
      (∀ entry ∈ entries, SectionLegible entry) ∧
        List.Forall₂ SectionGivenBy entries sections := by
  rw [← List.forall₂_and_left]
  induction entries generalizing sections with
  | nil => simp [Section.decodeAll?, eq_comm]
  | cons entry entries ih =>
      rw [List.forall_mem_cons] at hdates
      rw [Section.decodeAll?, List.forall₂_cons_left_iff]
      simp only [Option.bind_eq_bind, Option.bind_eq_some_iff, decode?_eq_some_iff hdates.1,
        ih hdates.2, Option.some.injEq]
      constructor
      · rintro ⟨own, hown, others, hothers, rfl⟩
        exact ⟨_, _, hown, hothers, rfl⟩
      · rintro ⟨⟨_, own⟩, others, ⟨hlegible, rfl, hgiven⟩, hothers, rfl⟩
        exact ⟨own, ⟨hlegible, rfl, hgiven⟩, others, hothers, rfl⟩

theorem exists_sectionGivenBy_iff {entry : String × Value} :
    (∃ named, SectionGivenBy entry named) ↔ SectionShaped entry := by
  constructor
  · rintro ⟨named, -, own, hown, hgiven⟩
    exact ⟨own, hown, Section.exists_givenBy_iff.1 ⟨named.2, hgiven⟩⟩
  · rintro ⟨own, hown, hshaped⟩
    obtain ⟨given, hgiven⟩ := Section.exists_givenBy_iff.2 hshaped
    exact ⟨(entry.1, given), rfl, own, hown, hgiven⟩

section Document

variable {entries : Table} {settings : Settings}

theorem everySection_iff {holds : String × Value → Prop} {sections : Table}
    (h : entries.lookup "linters" = some (.table sections)) :
    EverySection holds entries ↔ ∀ entry ∈ sections, holds entry := by
  simp [EverySection, h]

theorem givenBy_iff {sections : Table} (h : entries.lookup "linters" = some (.table sections)) :
    settings.GivenBy entries ↔ List.Forall₂ SectionGivenBy sections settings.sections := by
  constructor
  · exact fun hgiven => hgiven.table sections h
  · exact fun hsections => ⟨by simp [h], by simpa [h] using hsections⟩

theorem givenBy_iff_of_none (h : entries.lookup "linters" = none) :
    settings.GivenBy entries ↔ settings = .standard := by
  constructor
  · exact fun hgiven => congrArg Settings.mk (hgiven.none h)
  · rintro rfl
    exact ⟨fun _ => rfl, by simp [h]⟩

/-- The shape holds of a document with sections if it holds of each of them. -/
theorem shaped_of_forall₂ {sections : Table} {found : List (String × Section)}
    (hkeys : ∀ entry ∈ entries, entry.1 = "linters")
    (h : entries.lookup "linters" = some (.table sections))
    (hfound : List.Forall₂ SectionGivenBy sections found) : Shaped entries := by
  refine ⟨hkeys, fun value hvalue => ⟨sections, ?_, fun entry hentry => ?_⟩⟩
  · rw [h] at hvalue
    exact (Option.some.inj hvalue).symm
  · obtain hall := exists_forall₂_iff.1 ⟨found, hfound⟩
    exact exists_sectionGivenBy_iff.1 (hall entry hentry)

theorem ofEntries?_eq_some_iff (hdates : NoDatetime entries) :
    ofEntries? entries = some settings ↔
      Shaped entries ∧ EverySection SectionLegible entries ∧ settings.GivenBy entries := by
  unfold ofEntries?
  by_cases hkeys : ∀ entry ∈ entries, entry.1 = "linters"
  · rw [if_pos (by simpa using hkeys)]
    cases hlookup : entries.lookup "linters" with
    | none =>
        rw [givenBy_iff_of_none hlookup]
        constructor
        · rintro ⟨⟩
          exact ⟨⟨hkeys, by simp [hlookup]⟩, by simp [EverySection, hlookup], rfl⟩
        · rintro ⟨-, -, rfl⟩
          rfl
    | some value =>
        cases value with
        | table sections =>
            dsimp only
            rw [Option.map_eq_some_iff, givenBy_iff hlookup, everySection_iff hlookup]
            simp only [decodeAll?_eq_some_iff ((everySection_iff hlookup).1 hdates)]
            constructor
            · rintro ⟨found, ⟨hlegible, hfound⟩, rfl⟩
              exact ⟨shaped_of_forall₂ hkeys hlookup hfound, hlegible, hfound⟩
            · rintro ⟨-, hlegible, hfound⟩
              exact ⟨settings.sections, ⟨hlegible, hfound⟩, rfl⟩
        | _ =>
            refine iff_of_false nofun ?_
            rintro ⟨hshaped, -, -⟩
            obtain ⟨sections, ⟨⟩, -⟩ := hshaped.sections _ hlookup
  · rw [if_neg (by simpa using hkeys)]
    exact iff_of_false nofun fun h => hkeys h.1.keys

/-- A document of the right shape gives some settings. -/
theorem exists_givenBy_of_shaped (h : Shaped entries) :
    ∃ settings : Settings, settings.GivenBy entries := by
  cases hlookup : entries.lookup "linters" with
  | none => exact ⟨.standard, (givenBy_iff_of_none hlookup).2 rfl⟩
  | some value =>
      obtain ⟨sections, rfl, hsections⟩ := h.sections value hlookup
      obtain ⟨found, hfound⟩ := exists_forall₂_iff.2 fun entry hentry =>
        exists_sectionGivenBy_iff.2 (hsections entry hentry)
      exact ⟨⟨found⟩, (givenBy_iff hlookup).2 hfound⟩

/-- In the options of the section no table begins with the reserved key. -/
def SectionUnreserved (entry : String × Value) : Prop :=
  ∀ own, entry.2 = .table own → ∀ option ∈ Section.optionsOf own, option.2.Unreserved

theorem SectionUnreserved.legible {entry : String × Value} (h : SectionUnreserved entry) :
    SectionLegible entry :=
  fun own hown option hoption => (h own hown option hoption).legible

/-- A document is settings iff it has the right shape and its options are legible, and the shape
alone decides where no table in an option begins with the reserved key.  The settings are those that
the document gives. -/
theorem ofEntries?_by_shape (entries : Table) (hdates : NoDatetime entries) :
    ((∃ settings, ofEntries? entries = some settings) ↔
        Shaped entries ∧ EverySection SectionLegible entries) ∧
      (EverySection SectionUnreserved entries →
        ((∃ settings, ofEntries? entries = some settings) ↔ Shaped entries)) ∧
      ∀ settings, ofEntries? entries = some settings → settings.GivenBy entries := by
  have haccepted : (∃ settings, ofEntries? entries = some settings) ↔
      Shaped entries ∧ EverySection SectionLegible entries := by
    simp only [ofEntries?_eq_some_iff hdates]
    constructor
    · rintro ⟨settings, hshaped, hlegible, -⟩
      exact ⟨hshaped, hlegible⟩
    · rintro ⟨hshaped, hlegible⟩
      obtain ⟨settings, hgiven⟩ := exists_givenBy_of_shaped hshaped
      exact ⟨settings, hshaped, hlegible, hgiven⟩
  refine ⟨haccepted, fun hunreserved => ?_,
    fun settings h => ((ofEntries?_eq_some_iff hdates).1 h).2.2⟩
  rw [haccepted]
  exact and_iff_left fun sections hlookup entry hentry =>
    (hunreserved sections hlookup entry hentry).legible

/-- A switch behind an option, a table in an array, and a section without a switch. -/
theorem ofEntries?_by_shape_two_sections :
    let inner : Value := .array [.integer 1, .table [("enabled", .float)]]
    let entries : Table := [("linters", .table
      [("Zeta", .table [("depth", inner), ("enabled", .boolean false)]),
        ("AttributesWrapper", .table [("style", .string "any")])])]
    let settings : Settings := ⟨[("Zeta", ⟨false, [("depth", inner)]⟩),
      ("AttributesWrapper", ⟨true, [("style", .string "any")]⟩)]⟩
    NoDatetime entries ∧ EverySection SectionUnreserved entries ∧ Shaped entries ∧
      ofEntries? entries = some settings ∧ settings.GivenBy entries := by
  intro inner entries settings
  have hdates : NoDatetime entries := by
    rintro _ ⟨⟩
    simp
  have hinner : inner.Unreserved := by
    refine Value.everyReserved_array_iff.2 ?_
    rw [List.forall_mem_cons, List.forall_mem_singleton]
    refine ⟨Value.everyReserved_of_leaf nofun nofun, (Value.everyReserved_table_iff rfl).2 ?_⟩
    rw [List.forall_mem_singleton]
    exact Value.everyReserved_of_leaf nofun nofun
  have hunreserved : EverySection SectionUnreserved entries := by
    rintro _ ⟨⟩ entry hentry own hown option hoption
    obtain rfl | rfl := by simpa using hentry
    · obtain rfl := Value.table.inj hown
      obtain rfl : option = ("depth", inner) := by simpa [Section.optionsOf] using hoption
      exact hinner
    · obtain rfl := Value.table.inj hown
      obtain rfl : option = ("style", .string "any") := by simpa [Section.optionsOf] using hoption
      exact Value.everyReserved_of_leaf nofun nofun
  obtain ⟨-, hshape, hgiven⟩ := ofEntries?_by_shape entries hdates
  exact ⟨hdates, hunreserved, (hshape hunreserved).1 ⟨settings, rfl⟩, rfl, hgiven settings rfl⟩

/-- The shape alone does not decide: a document of the right shape is refused, because a table in an
option has a number under the reserved key. -/
theorem shape_does_not_decide :
    let entries : Table := [("linters", .table
      [("AttributesWrapper", .table [("style", .table [(datetimeKey, .integer 5)])])])]
    Toml.read? "[linters.AttributesWrapper]\nstyle = \x7b'$__toml_private_datetime' = 5\x7d" =
        some entries ∧
      NoDatetime entries ∧
      ¬ ((∃ settings, ofEntries? entries = some settings) ↔ Shaped entries) := by
  intro entries
  have hread : Toml.read?
      "[linters.AttributesWrapper]\nstyle = \x7b'$__toml_private_datetime' = 5\x7d" =
        some entries := by
    cbv
  have hdates : NoDatetime entries := by
    rintro _ ⟨⟩
    simp
  have hshaped : Shaped entries := by
    refine ⟨by simp [entries], ?_⟩
    rintro _ ⟨⟩
    exact ⟨_, rfl, by simp [SectionShaped, Section.Shaped, List.lookup]⟩
  refine ⟨hread, hdates, fun h => ?_⟩
  obtain ⟨settings, hsettings⟩ := h.2 hshaped
  cases hsettings

end Document

end Settings

end WrapLint
