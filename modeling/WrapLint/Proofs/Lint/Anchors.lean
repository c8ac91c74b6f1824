import Mathlib.Tactic.Common
import WrapLint.Proofs.Lint.StylePartition

/-!
# What the tree decides about a line

Of the tree, only two things matter to a line: whether some element or some attribute of an
element stands on it (it is *occupied*), and whether one of these attributes is more than
shorthand (it is *loose*, and then occupied).  A line whose text breaks the style is one of three:

* loose, and then its lint points at an attribute,
* not occupied, and then its lint points at the line,
* occupied but not loose, and then it is exempt and has no lint.

**Results.**
* `reported_iff`: the lines that have a lint.
* `atNode_iff`, `atLine_iff`: the lines whose lint points at an attribute, and at the line.
-/

namespace WrapLint

open Template (Document Position Occupied Loose isSome_firstLoose?_attributesOf
  firstLoose?_eq_none_iff_not_loose)

namespace AttributesWrapper

section Cases

variable {style : Style} {document : Document} {n : Nat}

/-- A line is reported iff its text breaks the style and it is loose if it is occupied. -/
theorem reported_iff :
    Reported style document n ↔ lineViolates style document n = true ∧
      (Occupied document.elements n → Loose document.elements n) := by
  rw [Reported, lineViolates_iff, Document.exempt_iff_not_loose, not_and_not_right]

theorem reports_eq_true_iff_loose :
    reports style document n = true ↔ lineViolates style document n = true ∧
      (Occupied document.elements n → Loose document.elements n) := by
  rw [reports_eq_true_iff, reported_iff]

/-- A line is not reported iff it is occupied and not loose, should its text break the style. -/
theorem reports_eq_false_iff_not_loose :
    reports style document n = false ↔ (lineViolates style document n = true →
      Occupied document.elements n ∧ ¬ Loose document.elements n) := by
  rw [← Bool.not_eq_true, reports_eq_true_iff_loose, not_and, Classical.not_imp]

/-- The check finds the line and points at an attribute. -/
def AtNode (style : Style) (document : Document) (n : Nat) : Prop :=
  ∃ position : Position, position.line = n ∧
    lintAt style (.node position) ∈ run style document

/-- The check finds the line and points at the line as such. -/
def AtLine (style : Style) (document : Document) (n : Nat) : Prop :=
  lintAt style (.line n) ∈ run style document

instance : Decidable (AtLine style document n) :=
  inferInstanceAs (Decidable (lintAt style (.line n) ∈ run style document))

/-- The lints are those of the reported lines. -/
theorem mem_run_iff {lint : Lint} :
    lint ∈ run style document ↔
      ∃ m, Reported style document m ∧ lintOfLine style document m = lint := by
  rw [run_eq_map_filter, List.mem_map]
  simp only [List.mem_filter, decide_eq_true_eq]
  constructor
  · rintro ⟨m, ⟨-, hreported⟩, rfl⟩
    exact ⟨m, hreported, rfl⟩
  · rintro ⟨m, hreported, rfl⟩
    exact ⟨m, ⟨mem_range'_of_reported style document hreported, hreported⟩, rfl⟩

/-- A lint at a place is found iff its line is reported and anchored there. -/
theorem lintAt_mem_run_iff {location : Location} :
    lintAt style location ∈ run style document ↔
      Reported style document location.lineNumber ∧
        anchor document location.lineNumber = location := by
  rw [mem_run_iff]
  constructor
  · rintro ⟨m, hreported, hlint⟩
    have hline := line_lintOfLine style document m
    rw [hlint] at hline
    change location.lineNumber = m at hline
    subst hline
    exact ⟨hreported, congrArg Lint.location hlint⟩
  · rintro ⟨hreported, hanchor⟩
    refine ⟨_, hreported, ?_⟩
    rw [lintOfLine, hanchor, lintAt]

/-- On a loose line the lint points at an attribute of that line. -/
theorem anchor_eq_node_of_loose (h : Loose document.elements n) :
    ∃ position : Position, position.line = n ∧ anchor document n = .node position := by
  obtain ⟨item, hitem⟩ := Option.isSome_iff_exists.1
    ((isSome_firstLoose?_attributesOf document.elements n).2 h)
  refine ⟨item.position, Template.line_of_firstLoose? hitem, ?_⟩
  rw [anchor, hitem]

theorem anchor_eq_line_of_not_loose (h : ¬ Loose document.elements n) :
    anchor document n = .line n := by
  rw [anchor, (firstLoose?_eq_none_iff_not_loose document.elements n).2 h]

/-- A lint points at an attribute iff its line breaks the style and is loose. -/
theorem atNode_iff :
    AtNode style document n ↔
      lineViolates style document n = true ∧ Loose document.elements n := by
  constructor
  · rintro ⟨position, rfl, hmem⟩
    obtain ⟨hreported, hanchor⟩ := lintAt_mem_run_iff.1 hmem
    refine ⟨(reported_iff.1 hreported).1, ?_⟩
    by_contra hloose
    have hline := anchor_eq_line_of_not_loose hloose
    rw [Location.lineNumber] at hanchor
    rw [hanchor] at hline
    cases hline
  · rintro ⟨hviolates, hloose⟩
    obtain ⟨position, hline, hanchor⟩ := anchor_eq_node_of_loose hloose
    subst hline
    exact ⟨position, rfl, lintAt_mem_run_iff.2
      ⟨reported_iff.2 ⟨hviolates, fun _ => hloose⟩, hanchor⟩⟩

/-- A lint points at its line as such iff the line breaks the style and is not occupied. -/
theorem atLine_iff :
    AtLine style document n ↔
      lineViolates style document n = true ∧ ¬ Occupied document.elements n := by
  rw [AtLine, lintAt_mem_run_iff, Location.lineNumber, reported_iff]
  constructor
  · rintro ⟨⟨hviolates, himp⟩, hanchor⟩
    refine ⟨hviolates, fun hoccupied => ?_⟩
    obtain ⟨position, -, hnode⟩ := anchor_eq_node_of_loose (himp hoccupied)
    rw [hanchor] at hnode
    cases hnode
  · rintro ⟨hviolates, hfree⟩
    exact ⟨⟨hviolates, fun hoccupied => absurd hoccupied hfree⟩,
      anchor_eq_line_of_not_loose fun hloose => hfree hloose.occupied⟩

end Cases

end AttributesWrapper
end WrapLint
