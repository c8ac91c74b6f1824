import Mathlib.Tactic.Common
import WrapLint.Proofs.Lint.Reference

/-!
# The scan at every moment

The tree pass meets the nodes of a tree one after the other, and the text pass looks at one line
after the other.  This module says what the two maps hold in between: after any visits, also
those of half a walk or of no walk at all, and after any number of lines.

**Results.**
* `describes_after`: the invariant of the tree pass after any visits.
* `get?_lints_foldl_meet`: a lint that was found is never changed by a later visit.
* `visitorInFull_eq`: the tree pass is the same if it does not ask first whether an element has
  only shorthand.
* `get?_lintsAfterLines_eq_some_iff`: the text pass adds lints on lines without a mark only.
* `scan_after_visits`: all of this together.
-/

namespace WrapLint

open Template (Document Position Attribute AttributeList Visitor Visit ElementView Occupied Loose
  firstLoose? attributesOf isSome_firstLoose?_attributesOf)

namespace Template

/-- The elements among these visits, in the order in which they are met. -/
def elementsOf (visits : List Visit) : List ElementView :=
  visits.filterMap Visit.element?

end Template

open Template (elementsOf)

namespace AttributesWrapper
namespace Scan

section Moments

/-- The scan after these visits. -/
def after (style : Style) (document : Document) (visits : List Visit) : Scan :=
  visits.foldl (visitor style document).meet start

/-- The scan after an element when its attributes are gone through without asking first whether
they are all shorthand. -/
def visitElementInFull (style : Style) (document : Document) (position : Position)
    (list : AttributeList) (scan : Scan) : Scan :=
  ⟨list.attributes.foldl markAttribute (markElement scan.loose position.line),
    (list.attributes.filter (fun item => !item.isShorthand)).foldl
      (checkAttribute style document) scan.lints⟩

/-- The tree pass that does not ask. -/
def visitorInFull (style : Style) (document : Document) : Visitor Scan where
  onElement := fun _ position list _ scan =>
    scan.visitElementInFull style document position list

/-- The lints once the text pass has looked at the first `count` lines. -/
def lintsAfterLines (style : Style) (document : Document) (scan : Scan) (count : Nat) :
    LineMap Lint :=
  ((document.lines.take count).zipIdx 1).foldl (checkLine style scan.loose) scan.lints

end Moments

section Visits

variable (style : Style) (document : Document)

/-- The walk over a document is the visits of its tree. -/
theorem ofDocument_eq_after :
    ofDocument style document = after style document document.root.visits :=
  document.root.walk_eq_foldl (visitor style document) start

theorem after_append (visits later : List Visit) :
    after style document (visits ++ later)
      = later.foldl (visitor style document).meet (after style document visits) :=
  List.foldl_append

/-- The invariant of the tree pass after any visits. -/
theorem describes_after (visits : List Visit) :
    Describes style document (elementsOf visits) (after style document visits) := by
  have hfold : after style document visits = (elementsOf visits).foldl
      (fun scan element => visitElement style document element.position element.list scan)
      start :=
    Template.foldl_meet_eq_foldl_elements _ visits start
  rw [hfold]
  exact describes_foldl style document (elementsOf visits) (describes_start style document)

/-- To ask whether an element has only shorthand decides nothing. -/
theorem visitorInFull_eq : visitorInFull style document = visitor style document := by
  unfold visitorInFull visitor
  congr 1
  funext tag position list children scan
  exact (visitElement_eq style document position list scan).symm

variable {style document} {n : Nat} {lint : Lint}

/-- A visit does not change a lint that was found before, whatever the scan. -/
theorem get?_lints_meet {scan : Scan} (h : scan.lints.get? n = some lint) (visit : Visit) :
    ((visitor style document).meet scan visit).lints.get? n = some lint := by
  cases visit with
  | element tag position list children =>
      change (visitElement style document position list scan).lints.get? n = some lint
      rw [visitElement_eq, get?_foldl_checkAttribute, h, Option.some_or]
  | attributeList list => exact h
  | attr item => exact h
  | other position children => exact h

theorem get?_lints_foldl_meet {scan : Scan} (h : scan.lints.get? n = some lint)
    (visits : List Visit) :
    (visits.foldl (visitor style document).meet scan).lints.get? n = some lint := by
  induction visits generalizing scan with
  | nil => exact h
  | cons visit visits ih => exact ih (get?_lints_meet h visit)

end Visits

section Described

variable {style : Style} {document : Document} {visited : List ElementView} {scan : Scan}
  (h : Describes style document visited scan) (n : Nat)
include h

/-- A line is marked loose iff an attribute that is more than shorthand stands on it. -/
theorem Describes.get?_loose_iff : scan.loose.get? n = some true ↔ Loose visited n := by
  rw [h.loose, isSome_firstLoose?_attributesOf]

/-- A line has a lint iff it is marked loose and its text breaks the style. -/
theorem Describes.isSome_get?_lints_iff :
    (scan.lints.get? n).isSome = true ↔
      scan.loose.get? n = some true ∧ lineViolates style document n = true := by
  rw [h.lints, h.loose]
  by_cases hviolates : lineViolates style document n = true
  · simp [hviolates]
  · simp [hviolates]

/-- A lint points at the first attribute of its line that is more than shorthand. -/
theorem Describes.exists_item {lint : Lint} (hlint : scan.lints.get? n = some lint) :
    ∃ item ∈ firstLoose? (attributesOf visited) n, lint = lintOf style item := by
  rw [h.lints] at hlint
  split at hlint
  · obtain ⟨item, hitem, heq⟩ := Option.map_eq_some_iff.1 hlint
    exact ⟨item, hitem, heq.symm⟩
  · cases hlint

/-- On a line that breaks the style and has no lint, every mark is tight. -/
theorem Describes.get?_loose_ne_some_false_iff (hlint : scan.lints.get? n = none)
    (hviolates : lineViolates style document n = true) :
    scan.loose.get? n ≠ some false ↔ scan.loose.contains n = false := by
  rw [LineMap.contains]
  cases hmark : scan.loose.get? n with
  | none => simp
  | some loose =>
      cases loose with
      | false => simp
      | true =>
          -- A loose line that breaks the style has its lint already.
          have hsome := (h.isSome_get?_lints_iff n).2 ⟨hmark, hviolates⟩
          rw [hlint] at hsome
          cases hsome

end Described

section Lines

variable {style : Style} {document : Document}

/-- A document cut behind its first lines has these lines and no others. -/
theorem line?_take (document : Document) (count n : Nat) :
    ({ document with lines := document.lines.take count } : Document).line? n
      = if n ≤ count then document.line? n else none := by
  unfold Document.line?
  by_cases hzero : n = 0
  · simp [hzero]
  · rw [if_neg hzero, if_neg hzero, List.getElem?_take]
    have hbound : n - 1 < count ↔ n ≤ count := by omega
    simp only [hbound]

/-- Among the first lines there is one with this number that breaks the style iff the line with
this number is one of them and does. -/
theorem any_zipIdx_take (style : Style) (document : Document) (count n : Nat) :
    ((document.lines.take count).zipIdx 1).any
        (fun pair => pair.2 == n && Line.violates style pair.1.toList) = true ↔
      n ≤ count ∧ lineViolates style document n = true := by
  have hcut := any_zipIdx_lines style { document with lines := document.lines.take count } n
  rw [hcut, lineViolates, line?_take, lineViolates]
  split
  · rename_i hn
    simp [hn]
  · rename_i hn
    simp [hn]

/-- After the first lines, a line has the lint it had; or it had neither a lint nor a mark, it is
one of these lines, its text breaks the style, and its lint points at the line as such. -/
theorem get?_lintsAfterLines_eq_some_iff {visited : List ElementView} {scan : Scan}
    (h : Describes style document visited scan) (count n : Nat) (lint : Lint) :
    (lintsAfterLines style document scan count).get? n = some lint ↔
      scan.lints.get? n = some lint ∨
        scan.loose.contains n = false ∧ n ≤ count ∧ lineViolates style document n = true ∧
          lint = lintAt style (.line n) := by
  rw [lintsAfterLines, get?_foldl_checkLine]
  simp only [any_zipIdx_take]
  cases hlint : scan.lints.get? n with
  | some found =>
      have hmark : scan.loose.get? n = some true :=
        ((h.isSome_get?_lints_iff n).1 (by rw [hlint]; rfl)).1
      simp [LineMap.contains, hmark]
  | none =>
      rw [Option.none_or, Option.ite_none_right_eq_some]
      constructor
      · rintro ⟨⟨htight, hn, hviolates⟩, heq⟩
        exact Or.inr ⟨(h.get?_loose_ne_some_false_iff n hlint hviolates).1 htight, hn, hviolates,
          (Option.some.inj heq).symm⟩
      · rintro (hsome | ⟨hfree, hn, hviolates, rfl⟩)
        · cases hsome
        · exact ⟨⟨(h.get?_loose_ne_some_false_iff n hlint hviolates).2 hfree, hn, hviolates⟩, rfl⟩

/-- The check is the visits of the tree and then all lines. -/
theorem run_eq_values_lintsAfterLines (style : Style) (document : Document) :
    run style document =
      (lintsAfterLines style document (after style document document.root.visits)
        document.lineCount).values := by
  rw [lintsAfterLines, Document.lineCount, List.take_length, ← ofDocument_eq_after]
  rfl

end Lines

/-- What holds of the scan of any document after any visits.  A line has a mark iff an element
that was met or one of its attributes stands on it, and the mark is loose iff an attribute on it
is more than shorthand.  A line has a lint iff its mark is loose, the document has the line and
its text breaks the style; the lint points at the first such attribute that was met, on that line,
and no later visit changes it.  To go through every element in full gives the same scan.  The text
pass, at any line, has kept these lints and has added lints on lines without a mark only; the
check is its end after the visits of the whole tree. -/
theorem scan_after_visits (style : Style) (document : Document) (visits : List Visit) :
    (∀ n,
        ((after style document visits).loose.contains n = true ↔
          Occupied (elementsOf visits) n) ∧
        ((after style document visits).loose.get? n = some true ↔
          Loose (elementsOf visits) n) ∧
        ((after style document visits).lints.contains n = true ↔
          (after style document visits).loose.get? n = some true ∧
            ∃ text ∈ document.line? n, Line.violates style text.toList = true) ∧
        ∀ lint ∈ (after style document visits).lints.get? n,
          (∃ item ∈ firstLoose? (attributesOf (elementsOf visits)) n,
            item.position.line = n ∧ lint = ⟨name, .node item.position, style.message⟩) ∧
          ∀ later, (after style document (visits ++ later)).lints.get? n = some lint) ∧
      visits.foldl (visitorInFull style document).meet start = after style document visits ∧
      (∀ count n lint,
        (lintsAfterLines style document (after style document visits) count).get? n = some lint ↔
          (after style document visits).lints.get? n = some lint ∨
            (after style document visits).loose.contains n = false ∧ n ≤ count ∧
              (∃ text ∈ document.line? n, Line.violates style text.toList = true) ∧
              lint = ⟨name, .line n, style.message⟩) ∧
      run style document =
        (lintsAfterLines style document (after style document document.root.visits)
          document.lineCount).values := by
  have h := describes_after style document visits
  refine ⟨fun n => ⟨h.marked n, h.get?_loose_iff n, ?_, fun lint hlint => ⟨?_, fun later => ?_⟩⟩,
    ?_, fun count n lint => ?_, run_eq_values_lintsAfterLines style document⟩
  · rw [← lineViolates_iff]
    exact h.isSome_get?_lints_iff n
  · obtain ⟨item, hitem, heq⟩ := h.exists_item n hlint
    exact ⟨item, hitem, Template.line_of_firstLoose? hitem, heq⟩
  · rw [after_append]
    exact get?_lints_foldl_meet hlint later
  · rw [visitorInFull_eq]
    rfl
  · rw [← lineViolates_iff]
    exact get?_lintsAfterLines_eq_some_iff h count n lint

end Scan
end AttributesWrapper
end WrapLint
