import WrapLint.Proofs.LineMap
import WrapLint.Proofs.Lint.TreePass
import WrapLint.Proofs.Template.Lines

/-!
# What the attribute wrapper check reports

A declarative account of the check.  A line is reported iff it is a line of the document, its
text breaks the style, and it is not exempt.  Its lint is anchored at the first attribute on it
that is more than shorthand, and at the line as such if there is none.

**Results.**
* `get?_foldl_checkLine`: the text pass adds a lint on the lines that break the style, have no
  lint yet and are not exempt.
* `run_reports_exactly`: the check reports what the account says, from the first line to the last.
-/

namespace WrapLint

open Template (Document Attribute firstLoose? attributesOf)

namespace AttributesWrapper

section Account

/-- A line is reported iff the document has it, its text breaks the style, and it is not
exempt. -/
def Reported (style : Style) (document : Document) (line : Nat) : Prop :=
  (∃ text ∈ document.line? line, Line.violates style text.toList = true) ∧
    ¬ document.Exempt line

/-- Where a lint of a line is anchored: at the first attribute on it that is more than
shorthand, or at the line as such. -/
def anchor (document : Document) (line : Nat) : Location :=
  match firstLoose? (attributesOf document.elements) line with
  | some item => .node item.position
  | none => .line line

instance (style : Style) (document : Document) (line : Nat) :
    Decidable (Reported style document line) :=
  inferInstanceAs (Decidable (
    (∃ text ∈ document.line? line, Line.violates style text.toList = true) ∧
      ¬ document.Exempt line))

/-- The lint of a line by this account. -/
def lintOfLine (style : Style) (document : Document) (line : Nat) : Lint :=
  ⟨name, anchor document line, style.message⟩

end Account

section TextPass

variable {style : Style} {document : Document}

theorem lineViolates_iff (n : Nat) :
    lineViolates style document n = true ↔
      ∃ text ∈ document.line? n, Line.violates style text.toList = true := by
  simp [lineViolates, Option.any_eq_true]

/-- The pairs that the text pass goes through are the lines with their numbers. -/
theorem mem_zipIdx_lines_iff (text : String) (n : Nat) :
    (text, n) ∈ document.lines.zipIdx 1 ↔ document.line? n = some text := by
  rw [List.mk_mem_zipIdx_iff_le_and_getElem?_sub, document.line?_eq_some_iff]

/-- The text pass adds a lint on a line that breaks the style, has none yet and is not marked
as tight. -/
theorem get?_checkLine (loose : LineMap Bool) (lints : LineMap Lint) (pair : String × Nat)
    (n : Nat) :
    (Scan.checkLine style loose lints pair).get? n =
      (lints.get? n).or
        (if loose.get? n ≠ some false ∧
            (pair.2 == n && Line.violates style pair.1.toList) = true
          then some (lintAt style (.line n)) else none) := by
  unfold Scan.checkLine
  split
  · rename_i h
    simp only [Bool.or_eq_true, LineMap.contains, beq_iff_eq] at h
    cases hlint : lints.get? n with
    | some lint => rfl
    | none =>
        have hnot : ¬ (loose.get? n ≠ some false ∧
            (pair.2 == n && Line.violates style pair.1.toList) = true) := by
          rw [Bool.and_eq_true, beq_iff_eq]
          rintro ⟨htight, rfl, -⟩
          simp [hlint, htight] at h
        rw [if_neg hnot]
        rfl
  · rename_i h
    simp only [Bool.or_eq_true, LineMap.contains, beq_iff_eq, not_or, Bool.not_eq_true,
      Option.isSome_eq_false_iff, Option.isNone_iff_eq_none] at h
    by_cases hviolates : Line.violates style pair.1.toList = true
    · rw [if_pos hviolates, LineMap.get?_insert]
      by_cases hn : n = pair.2
      · subst hn
        simp [h.1, h.2, hviolates]
      · simp [hn, Ne.symm hn]
    · simp [hviolates]

theorem get?_foldl_checkLine (loose : LineMap Bool) (pairs : List (String × Nat))
    (lints : LineMap Lint) (n : Nat) :
    (pairs.foldl (Scan.checkLine style loose) lints).get? n =
      (lints.get? n).or
        (if loose.get? n ≠ some false ∧
            pairs.any (fun pair => pair.2 == n && Line.violates style pair.1.toList) = true
          then some (lintAt style (.line n)) else none) := by
  induction pairs generalizing lints with
  | nil => simp
  | cons pair pairs ih =>
      rw [List.foldl_cons, ih, get?_checkLine, Option.or_assoc, List.any_cons]
      congr 1
      by_cases hpair : (pair.2 == n && Line.violates style pair.1.toList) = true
      · by_cases htight : loose.get? n = some false
        · simp [htight]
        · rw [hpair, Bool.true_or]
          simp [htight]
      · rw [Bool.not_eq_true] at hpair
        rw [hpair, Bool.false_or]
        simp

/-- Among the lines with their numbers there is one with this number that breaks the style iff
the line with this number does. -/
theorem any_zipIdx_lines (style : Style) (document : Document) (n : Nat) :
    (document.lines.zipIdx 1).any
        (fun pair => pair.2 == n && Line.violates style pair.1.toList)
      = lineViolates style document n := by
  rw [Bool.eq_iff_iff, lineViolates_iff, List.any_eq_true]
  constructor
  · rintro ⟨⟨text, m⟩, hmem, h⟩
    rw [Bool.and_eq_true, beq_iff_eq] at h
    obtain ⟨rfl, hviolates⟩ := h
    exact ⟨text, (mem_zipIdx_lines_iff text m).1 hmem, hviolates⟩
  · rintro ⟨text, hline, hviolates⟩
    refine ⟨(text, n), (mem_zipIdx_lines_iff text n).2 hline, ?_⟩
    simp [hviolates]

end TextPass

section Run

variable (style : Style) (document : Document)

/-- What the check has for a line at the end of both passes. -/
theorem get?_run (n : Nat) :
    ((document.lines.zipIdx 1).foldl
        (Scan.checkLine style (Scan.ofDocument style document).loose)
        (Scan.ofDocument style document).lints).get? n =
      if Reported style document n then some (lintOfLine style document n) else none := by
  have hscan := Scan.describes_ofDocument style document
  have hreported : Reported style document n ↔
      lineViolates style document n = true ∧ ¬ document.Exempt n := by
    rw [Reported, lineViolates_iff]
  simp only [get?_foldl_checkLine, hscan.lints, any_zipIdx_lines, ne_eq,
    Scan.get?_loose_eq_false_iff, hreported]
  unfold lintOfLine anchor
  by_cases hviolates : lineViolates style document n = true
  · cases hfirst : firstLoose? (attributesOf document.elements) n with
    | none => simp [hviolates, lintAt]
    | some item =>
        have hexempt : ¬ document.Exempt n := by
          rw [Document.exempt_iff, hfirst]
          simp
        simp [hviolates, hexempt, Scan.lintOf, lintAt]
  · simp [hviolates]

/-- A reported line is a line of the document. -/
theorem mem_range'_of_reported {n : Nat} (h : Reported style document n) :
    n ∈ List.range' 1 document.lineCount := by
  obtain ⟨⟨text, hline, -⟩, -⟩ := h
  obtain ⟨hpos, hle⟩ := Document.bounds_of_line? hline
  rw [List.mem_range'_1]
  omega

/-- The check gives one lint for each reported line, from the first line to the last. -/
theorem run_eq_map_filter :
    run style document =
      ((List.range' 1 document.lineCount).filter (fun line => Reported style document line)).map
        (lintOfLine style document) := by
  refine LineMap.values_eq_map_of_get? ?_ fun n => ?_
  · exact List.Pairwise.filter _ (List.pairwise_lt_range' 1 (by decide))
  · rw [get?_run]
    congr 1
    simp only [List.mem_filter, decide_eq_true_eq, eq_iff_iff]
    exact ⟨fun h => ⟨mem_range'_of_reported style document h, h⟩, fun h => h.2⟩

/-- The lint of a line is on that line, also when it is anchored at an attribute. -/
theorem line_lintOfLine (n : Nat) : (lintOfLine style document n).line = n := by
  unfold lintOfLine anchor Lint.line
  cases hfirst : firstLoose? (attributesOf document.elements) n with
  | none => rfl
  | some item => exact Template.line_of_firstLoose? hfirst

/-- The reported lines, from the first to the last. -/
theorem map_line_run :
    (run style document).map Lint.line =
      (List.range' 1 document.lineCount).filter (fun line => Reported style document line) := by
  rw [run_eq_map_filter, List.map_map]
  have hline : Lint.line ∘ lintOfLine style document = id :=
    funext (line_lintOfLine style document)
  rw [hline, List.map_id]

theorem mem_map_line_run_iff (n : Nat) :
    n ∈ (run style document).map Lint.line ↔ Reported style document n := by
  rw [map_line_run, List.mem_filter, decide_eq_true_eq]
  exact ⟨fun h => h.2, fun h => ⟨mem_range'_of_reported style document h, h⟩⟩

/-- The check reports exactly what the declarative account says: the lines it is about, each
once and in increasing order, and for each line this lint. -/
theorem run_reports_exactly :
    (∀ n, n ∈ (run style document).map Lint.line ↔
        1 ≤ n ∧ n ≤ document.lineCount ∧
          (∃ text ∈ document.line? n, Line.violates style text.toList = true) ∧
          ¬ document.Exempt n) ∧
      ((run style document).map Lint.line).Pairwise (· < ·) ∧
      run style document =
        ((run style document).map Lint.line).map
          (fun n => ⟨name, anchor document n, style.message⟩) := by
  refine ⟨fun n => ?_, ?_, ?_⟩
  · rw [mem_map_line_run_iff]
    constructor
    · intro h
      have hbounds := mem_range'_of_reported style document h
      rw [List.mem_range'_1] at hbounds
      exact ⟨hbounds.1, by omega, h.1, h.2⟩
    · rintro ⟨-, -, htext, hexempt⟩
      exact ⟨htext, hexempt⟩
  · rw [map_line_run]
    exact List.Pairwise.filter _ (List.pairwise_lt_range' 1 (by decide))
  · rw [map_line_run]
    exact run_eq_map_filter style document

end Run

end AttributesWrapper
end WrapLint
