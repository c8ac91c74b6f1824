import Mathlib.Tactic.Common
import WrapLint.Proofs.Lint.Reference

/-!
# Merging what several linters find

The lints of several linters are put together and sorted by line.  The sort may not lose a lint
and may not double one, and on one line the lints keep the order in which they came: first by
linter, then as the linter gave them.

**Results.**
* `filter_line_mergeSort`: sorting by line leaves the lints of each line in their order.
* `pairwise_line_run`: the attribute wrapper check gives its lints by line already.
* `lintDocument_merges`: the merged lints of any linters.
-/

namespace WrapLint

open Template (Document)

section Sorting

theorem le_line_trans (x y z : Lint) (hxy : decide (x.line ≤ y.line) = true)
    (hyz : decide (y.line ≤ z.line) = true) : decide (x.line ≤ z.line) = true := by
  rw [decide_eq_true_eq] at hxy hyz ⊢
  exact hxy.trans hyz

theorem le_line_total (x y : Lint) :
    (decide (x.line ≤ y.line) || decide (y.line ≤ x.line)) = true := by
  rw [Bool.or_eq_true, decide_eq_true_eq, decide_eq_true_eq]
  exact Nat.le_total x.line y.line

/-- Sorting by line leaves the lints of each line in their order. -/
theorem filter_line_mergeSort (lints : List Lint) (n : Nat) :
    (lints.mergeSort (fun x y => x.line ≤ y.line)).filter (fun lint => lint.line = n)
      = lints.filter (fun lint => lint.line = n) := by
  -- The lints of one line are in order whatever their order is, so the sort, which is stable,
  -- keeps them as a sublist; it has as many lints of that line.
  have hordered : (lints.filter (fun lint => lint.line = n)).Pairwise
      (fun x y => decide (x.line ≤ y.line) = true) := by
    rw [List.pairwise_filter]
    refine List.pairwise_of_forall fun x y hx hy => ?_
    rw [decide_eq_true_eq] at hx hy ⊢
    exact (hx.trans hy.symm).le
  have hsublist := (List.sublist_mergeSort le_line_trans le_line_total hordered
    List.filter_sublist).filter (fun lint => lint.line = n)
  rw [List.filter_filter] at hsublist
  simp only [Bool.and_self] at hsublist
  have hlength := ((List.mergeSort_perm lints (fun x y => x.line ≤ y.line)).filter
    (fun lint => lint.line = n)).length_eq
  exact (hsublist.eq_of_length hlength.symm).symm

end Sorting

namespace AttributesWrapper

/-- The check gives its lints from the first line to the last. -/
theorem pairwise_line_run (style : Style) (document : Document) :
    (run style document).Pairwise (fun x y => x.line ≤ y.line) := by
  have hlines : ((run style document).map Lint.line).Pairwise (· < ·) := by
    rw [map_line_run]
    exact List.Pairwise.filter _ (List.pairwise_lt_range' 1 (by decide))
  exact (List.pairwise_map.1 hlines).imp Nat.le_of_lt

end AttributesWrapper

/-- The merged lints are those of all linters, by line, and on each line in the order of the
linters.  The attribute wrapper check alone is merged to what it gives. -/
theorem lintDocument_merges (document : Document) :
    (∀ linters,
      (lintDocument linters document).Perm
          (linters.flatMap (fun linter => linter.run document)) ∧
        (lintDocument linters document).Pairwise (fun x y => x.line ≤ y.line) ∧
        ∀ n, (lintDocument linters document).filter (fun lint => lint.line = n) =
          linters.flatMap (fun linter =>
            (linter.run document).filter (fun lint => lint.line = n))) ∧
      ∀ style, lintDocument [AttributesWrapper.linter style] document
        = AttributesWrapper.run style document := by
  refine ⟨fun linters => ⟨?_, ?_, fun n => ?_⟩, fun style => ?_⟩
  · exact List.mergeSort_perm _ _
  · refine (List.pairwise_mergeSort le_line_trans le_line_total _).imp fun h => ?_
    exact of_decide_eq_true h
  · rw [lintDocument, filter_line_mergeSort, List.filter_flatMap]
  · have hordered := (AttributesWrapper.pairwise_line_run style document).imp
      fun h => decide_eq_true h
    rw [lintDocument, List.flatMap_singleton]
    exact List.mergeSort_of_pairwise hordered

end WrapLint
