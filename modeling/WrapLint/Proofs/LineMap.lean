import Mathlib.Data.List.Sort
import Mathlib.Tactic.Common
import WrapLint.LineMap

/-!
# Maps from line numbers, as sets of entries

A map from line numbers is determined by what is found on each line: the keys of the entries
increase, so there is one entry for a line and one place for it.

**Results.**
* `get?_eq_some_iff`: what is found on a line is the value of an entry.
* `values_eq_map_of_get?`: the values of a map whose keys are known, from the first line to the
  last.
-/

namespace WrapLint
namespace LineMap

variable {α : Type}

/-- What is found in a list of entries with increasing keys is the value of an entry. -/
theorem lookup_eq_some_iff (n : Nat) (a : α) :
    ∀ {entries : List (Nat × α)}, entries.Pairwise (fun x y => x.1 < y.1) →
      (entries.lookup n = some a ↔ (n, a) ∈ entries)
  | [], _ => by simp
  | (m, b) :: entries, h => by
      obtain ⟨hlt, hrest⟩ := List.pairwise_cons.1 h
      have ih := lookup_eq_some_iff n a hrest
      by_cases hm : n = m
      · subst hm
        have hnot : (n, a) ∉ entries := fun hmem => Nat.lt_irrefl n (hlt (n, a) hmem)
        simp [hnot, eq_comm]
      · have hne : (n == m) = false := by simpa using hm
        simp [List.lookup_cons, hne, hm, ih]

theorem get?_eq_some_iff (map : LineMap α) (n : Nat) (a : α) :
    map.get? n = some a ↔ (n, a) ∈ map.entries :=
  lookup_eq_some_iff n a map.increasing

/-- The values of a map with these keys, each value given by its line. -/
theorem values_eq_map_of_get? {map : LineMap α} {keys : List Nat} {f : Nat → α}
    (hkeys : keys.Pairwise (· < ·))
    (h : ∀ n, map.get? n = if n ∈ keys then some (f n) else none) :
    map.values = keys.map f := by
  have hirrefl : Std.Irrefl (fun x y : Nat × α => x.1 < y.1) := ⟨fun x => Nat.lt_irrefl x.1⟩
  have hentries : map.entries = keys.map (fun n => (n, f n)) := by
    refine map.increasing.eq_of_mem_iff (List.pairwise_map.2 hkeys) ?_
    rintro ⟨n, a⟩
    rw [← get?_eq_some_iff, h, List.mem_map]
    split
    · rename_i hn
      simp [hn]
    · rename_i hn
      simp [hn]
  rw [values, hentries, List.map_map]
  rfl

end LineMap
end WrapLint
