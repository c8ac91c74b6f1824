import Mathlib.Tactic.Common
import WrapLint.Settings.Decode

/-!
# Values of options

The value of an option is kept as it is, but for tables that begin with the reserved key: such a
table must spell a date-time, and is taken as that date-time.

**Results.**
* `optionValue?_eq_some_iff`: which values can be the value of an option (`Legible`), and what
  becomes of them (`withDatetimes`).
* `withDatetimes_of_unreserved`: a value in which no table begins with the reserved key is kept.
-/

namespace WrapLint
namespace Toml.Value

section Definitions

/-- A value is another, or stands in it at some depth. -/
inductive Occurs (inner : Value) : Value → Prop
  | here : Occurs inner inner
  | item {value : Value} {items : List Value} (hmem : value ∈ items) (h : Occurs inner value) :
      Occurs inner (.array items)
  | entry {key : String} {value : Value} {entries : List (String × Value)}
      (hmem : (key, value) ∈ entries) (h : Occurs inner value) : Occurs inner (.table entries)

/-- Of every table in the value that begins with the reserved key something holds, said of what
stands there and of the other entries. -/
def EveryReserved (holds : Value → List (String × Value) → Prop) (value : Value) : Prop :=
  ∀ first rest, Occurs (.table ((datetimeKey, first) :: rest)) value → holds first rest

/-- No table in the value begins with the reserved key. -/
def Unreserved (value : Value) : Prop :=
  EveryReserved (fun _ _ => False) value

/-- Every table in the value that begins with the reserved key has the text of a date-time there
and nothing else. -/
def Legible (value : Value) : Prop :=
  EveryReserved (fun first rest => rest = [] ∧
    ∃ text, first = .string text ∧ (datetime? text.toList).isSome = true) value

/-- The date-time that the entries of a table spell. -/
def spelledDatetime? : List (String × Value) → Option String
  | [(key, .string text)] => if key = datetimeKey then datetime? text.toList else none
  | _ => none

mutual

/-- The value with a date-time in the place of every table that spells one. -/
def withDatetimes : Value → Value
  | .array items => .array (withDatetimesAll items)
  | .table entries =>
    match spelledDatetime? entries with
    | some date => .datetime date
    | none => .table (withDatetimesIn entries)
  | value => value

/-- `withDatetimes` for every item of an array. -/
def withDatetimesAll : List Value → List Value
  | [] => []
  | item :: items => withDatetimes item :: withDatetimesAll items

/-- `withDatetimes` for the value of every entry. -/
def withDatetimesIn : List (String × Value) → List (String × Value)
  | [] => []
  | (key, value) :: entries => (key, withDatetimes value) :: withDatetimesIn entries

end

end Definitions

theorem withDatetimesIn_eq_map (entries : List (String × Value)) :
    withDatetimesIn entries = entries.map fun entry => (entry.1, entry.2.withDatetimes) := by
  induction entries with
  | nil => rfl
  | cons entry entries ih => rw [withDatetimesIn, ih, List.map_cons]

section Reserved

variable {holds : Value → List (String × Value) → Prop}

theorem EveryReserved.of_occurs {inner value : Value} (h : EveryReserved holds value)
    (hinner : Occurs inner value) : EveryReserved holds inner := by
  intro first rest hfirst
  refine h first rest ?_
  induction hinner with
  | here => exact hfirst
  | item hmem _ ih => exact .item hmem (ih fun first rest hocc => h first rest (.item hmem hocc))
  | entry hmem _ ih => exact .entry hmem (ih fun first rest hocc => h first rest (.entry hmem hocc))

theorem everyReserved_array_iff {items : List Value} :
    EveryReserved holds (.array items) ↔ ∀ item ∈ items, EveryReserved holds item := by
  constructor
  · exact fun h item hmem => h.of_occurs (.item hmem .here)
  · intro h first rest hocc
    cases hocc with
    | item hmem hocc => exact h _ hmem first rest hocc

theorem everyReserved_table_iff {entries : List (String × Value)}
    (hkey : beginsDatetime entries = false) :
    EveryReserved holds (.table entries) ↔ ∀ entry ∈ entries, EveryReserved holds entry.2 := by
  constructor
  · exact fun h entry hmem => h.of_occurs (.entry hmem .here)
  · intro h first rest hocc
    cases hocc with
    | here => simp [beginsDatetime] at hkey
    | entry hmem hocc => exact h _ hmem first rest hocc

theorem everyReserved_of_leaf {value : Value} (harray : ∀ items, value ≠ .array items)
    (htable : ∀ entries, value ≠ .table entries) : EveryReserved holds value := by
  intro first rest hocc
  cases hocc with
  | here => exact absurd rfl (htable _)
  | item => exact absurd rfl (harray _)
  | entry => exact absurd rfl (htable _)

theorem legible_of_leaf {value : Value} (harray : ∀ items, value ≠ .array items)
    (htable : ∀ entries, value ≠ .table entries) : Legible value :=
  everyReserved_of_leaf harray htable

theorem EveryReserved.mono {others : Value → List (String × Value) → Prop} {value : Value}
    (himp : ∀ first rest, holds first rest → others first rest) (h : EveryReserved holds value) :
    EveryReserved others value :=
  fun first rest hocc => himp first rest (h first rest hocc)

theorem Unreserved.legible {value : Value} (h : Unreserved value) : Legible value :=
  EveryReserved.mono (fun _ _ => False.elim) h

theorem Unreserved.beginsDatetime_eq_false {entries : List (String × Value)}
    (h : Unreserved (.table entries)) : beginsDatetime entries = false := by
  match entries, h with
  | [], _ => rfl
  | (key, first) :: rest, h =>
    rw [beginsDatetime, List.head?_cons, Option.any_some, beq_eq_false_iff_ne]
    rintro rfl
    exact h first rest .here

/-- A table that begins with the reserved key is legible if it spells a date-time. -/
theorem legible_table_iff_of_begins {entries : List (String × Value)}
    (hkey : beginsDatetime entries = true) :
    Legible (.table entries) ↔ (spelledDatetime? entries).isSome = true := by
  match entries, hkey with
  | (key, first) :: rest, hkey =>
    obtain rfl : key = datetimeKey := by simpa [beginsDatetime] using hkey
    constructor
    · intro h
      obtain ⟨rfl, text, rfl, htext⟩ := h first rest .here
      simpa [spelledDatetime?] using htext
    · intro h
      unfold spelledDatetime? at h
      split at h
      · rename_i key text heq
        obtain ⟨⟨rfl, rfl⟩, rfl⟩ : (datetimeKey = key ∧ first = .string text) ∧ rest = [] := by
          simpa using heq
        rw [if_pos rfl] at h
        intro inner others hocc
        cases hocc with
        | here => exact ⟨rfl, text, rfl, h⟩
        | entry hmem hocc =>
            obtain ⟨-, rfl⟩ : _ ∧ _ = Value.string text := by simpa using hmem
            exact absurd hocc (by rintro ⟨⟩)
      · cases h

end Reserved

section Reading

theorem spelledDatetime?_eq_none {entries : List (String × Value)}
    (hkey : beginsDatetime entries = false) : spelledDatetime? entries = none := by
  unfold spelledDatetime?
  split
  · rw [if_neg]
    rintro rfl
    simp [beginsDatetime] at hkey
  · rfl

theorem datetimeOfEntries?_eq {entries : List (String × Value)}
    (hkey : beginsDatetime entries = true) :
    datetimeOfEntries? entries = (spelledDatetime? entries).map .datetime := by
  by_cases hform : ∃ key text, entries = [(key, .string text)]
  · obtain ⟨key, text, rfl⟩ := hform
    obtain rfl : key = datetimeKey := by simpa [beginsDatetime] using hkey
    simp [datetimeOfEntries?, spelledDatetime?]
  · have hother : ∀ key text, entries = [(key, .string text)] → False :=
      fun key text heq => hform ⟨key, text, heq⟩
    rw [datetimeOfEntries?.eq_2 _ hother, spelledDatetime?.eq_2 _ hother, Option.map_none]

mutual

theorem optionValue?_eq_some_iff : ∀ {value read : Value},
    optionValue? value = some read ↔ Legible value ∧ read = value.withDatetimes
  | .array items, read => by
      rw [optionValue?, Option.map_eq_some_iff, Legible, everyReserved_array_iff, withDatetimes]
      simp only [optionItems?_eq_some_iff]
      constructor
      · rintro ⟨_, ⟨h, rfl⟩, rfl⟩
        exact ⟨h, rfl⟩
      · rintro ⟨h, rfl⟩
        exact ⟨_, ⟨h, rfl⟩, rfl⟩
  | .table entries, read => by
      rw [optionValue?, withDatetimes]
      cases hkey : beginsDatetime entries with
      | true =>
          rw [if_pos rfl, datetimeOfEntries?_eq hkey, legible_table_iff_of_begins hkey]
          cases spelledDatetime? entries with
          | none => simp
          | some date => simp [eq_comm]
      | false =>
          rw [if_neg (by simp), Option.map_eq_some_iff, Legible, everyReserved_table_iff hkey,
            spelledDatetime?_eq_none hkey]
          simp only [optionEntries?_eq_some_iff]
          constructor
          · rintro ⟨_, ⟨h, rfl⟩, rfl⟩
            exact ⟨h, rfl⟩
          · rintro ⟨h, rfl⟩
            exact ⟨_, ⟨h, rfl⟩, rfl⟩
  | .string text, read => by simp [optionValue?, withDatetimes, legible_of_leaf, eq_comm]
  | .integer value, read => by simp [optionValue?, withDatetimes, legible_of_leaf, eq_comm]
  | .float, read => by simp [optionValue?, withDatetimes, legible_of_leaf, eq_comm]
  | .datetime text, read => by simp [optionValue?, withDatetimes, legible_of_leaf, eq_comm]
  | .boolean value, read => by simp [optionValue?, withDatetimes, legible_of_leaf, eq_comm]

theorem optionItems?_eq_some_iff : ∀ {items read : List Value},
    optionItems? items = some read ↔
      (∀ item ∈ items, Legible item) ∧ read = withDatetimesAll items
  | [], read => by simp [optionItems?, withDatetimesAll, eq_comm]
  | item :: items, read => by
      rw [optionItems?, List.forall_mem_cons, withDatetimesAll]
      simp only [Option.bind_eq_bind, Option.bind_eq_some_iff, optionValue?_eq_some_iff,
        optionItems?_eq_some_iff, Option.some.injEq]
      constructor
      · rintro ⟨_, ⟨hitem, rfl⟩, _, ⟨hitems, rfl⟩, rfl⟩
        exact ⟨⟨hitem, hitems⟩, rfl⟩
      · rintro ⟨⟨hitem, hitems⟩, rfl⟩
        exact ⟨_, ⟨hitem, rfl⟩, _, ⟨hitems, rfl⟩, rfl⟩

theorem optionEntries?_eq_some_iff : ∀ {entries read : List (String × Value)},
    optionEntries? entries = some read ↔
      (∀ entry ∈ entries, Legible entry.2) ∧ read = withDatetimesIn entries
  | [], read => by simp [optionEntries?, withDatetimesIn, eq_comm]
  | (key, value) :: entries, read => by
      rw [optionEntries?, List.forall_mem_cons, withDatetimesIn]
      simp only [Option.bind_eq_bind, Option.bind_eq_some_iff, optionValue?_eq_some_iff,
        optionEntries?_eq_some_iff, Option.some.injEq]
      constructor
      · rintro ⟨_, ⟨hvalue, rfl⟩, _, ⟨hentries, rfl⟩, rfl⟩
        exact ⟨⟨hvalue, hentries⟩, rfl⟩
      · rintro ⟨⟨hvalue, hentries⟩, rfl⟩
        exact ⟨_, ⟨hvalue, rfl⟩, _, ⟨hentries, rfl⟩, rfl⟩

end

end Reading

section Unreserved

mutual

/-- A value in which no table begins with the reserved key is kept. -/
theorem withDatetimes_of_unreserved : ∀ {value : Value}, Unreserved value →
    value.withDatetimes = value
  | .array items, h => by
      rw [withDatetimes, withDatetimesAll_of_unreserved (everyReserved_array_iff.1 h)]
  | .table entries, h => by
      have hkey := h.beginsDatetime_eq_false
      rw [withDatetimes, spelledDatetime?_eq_none hkey,
        withDatetimesIn_of_unreserved ((everyReserved_table_iff hkey).1 h)]
  | .string _, _ => rfl
  | .integer _, _ => rfl
  | .float, _ => rfl
  | .datetime _, _ => rfl
  | .boolean _, _ => rfl

theorem withDatetimesAll_of_unreserved : ∀ {items : List Value},
    (∀ item ∈ items, Unreserved item) → withDatetimesAll items = items
  | [], _ => rfl
  | item :: items, h => by
      rw [List.forall_mem_cons] at h
      rw [withDatetimesAll, withDatetimes_of_unreserved h.1, withDatetimesAll_of_unreserved h.2]

theorem withDatetimesIn_of_unreserved : ∀ {entries : List (String × Value)},
    (∀ entry ∈ entries, Unreserved entry.2) → withDatetimesIn entries = entries
  | [], _ => rfl
  | (key, value) :: entries, h => by
      rw [List.forall_mem_cons] at h
      rw [withDatetimesIn, withDatetimes_of_unreserved h.1, withDatetimesIn_of_unreserved h.2]

end

end Unreserved

end Toml.Value
end WrapLint
