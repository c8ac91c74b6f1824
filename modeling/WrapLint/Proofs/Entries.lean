import Mathlib.Data.List.Perm.Basic
import Mathlib.Tactic.Common

/-!
# Lists of entries

Settings, tables and directories keep their entries in a list of keys with what stands at them.
Where the keys are distinct such a list is a map: what is found at a key is the one entry with it.

**Results.**
* `lookup_eq_some_iff_mem`: what is found at a key, as an entry of the list.
* `lookup_eq_of_perm`: the order of the entries does not matter.
* `lookup_map_snd`: a change to what stands at the keys is found at each key.
-/

namespace WrapLint

variable {κ α β : Type} [BEq κ]

section Lawful

variable [LawfulBEq κ]

theorem lookup_eq_some_iff_mem (key : κ) (value : α) :
    ∀ {entries : List (κ × α)}, (entries.map Prod.fst).Nodup →
      (entries.lookup key = some value ↔ (key, value) ∈ entries)
  | [], _ => by simp
  | (other, found) :: entries, h => by
      rw [List.map_cons, List.nodup_cons] at h
      have ih := lookup_eq_some_iff_mem key value h.2
      by_cases hkey : key = other
      · subst hkey
        have hnot : (key, value) ∉ entries := fun hmem =>
          h.1 (List.mem_map.2 ⟨_, hmem, rfl⟩)
        simp [hnot, eq_comm]
      · have hne : (key == other) = false := by simpa using hkey
        simp [List.lookup_cons, hne, hkey, ih]

theorem lookup_eq_of_perm {entries others : List (κ × α)} (h : entries.Perm others)
    (hnodup : (entries.map Prod.fst).Nodup) (key : κ) :
    entries.lookup key = others.lookup key := by
  have hothers : (others.map Prod.fst).Nodup := (h.map Prod.fst).nodup_iff.1 hnodup
  refine Option.ext fun value => ?_
  rw [lookup_eq_some_iff_mem key value hnodup, lookup_eq_some_iff_mem key value hothers,
    h.mem_iff]

end Lawful

theorem lookup_map_snd (f : α → β) (key : κ) (entries : List (κ × α)) :
    (entries.map fun entry => (entry.1, f entry.2)).lookup key = (entries.lookup key).map f := by
  induction entries with
  | nil => rfl
  | cons entry entries ih =>
      rw [List.map_cons, List.lookup_cons, List.lookup_cons]
      split <;> simp_all

end WrapLint
