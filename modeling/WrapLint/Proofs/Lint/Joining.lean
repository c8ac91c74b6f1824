import Mathlib.Tactic.Common
import WrapLint.Proofs.Lint.Reference
import WrapLint.Proofs.Template.Joining

/-!
# Checking one document under another

The check judges each line from its text and from what stands on it, and nothing else.  So the
lints of a document that is made of two are those of the first and then those of the second, as
many lines further down as the first has lines.

**Results.**
* `reported_of_le`, `reported_add`: the lines of either part are reported as before.
* `lintOfLine_of_le`, `lintOfLine_add`: and their lints point to the same places.
* `run_append_sources`: the lints of two sources, one behind the other.
-/

namespace WrapLint

open Template (Document Node Position Joins)

/-- The place this many lines further down; its column and its kind stay. -/
def Location.moveDown (count : Nat) : Location → Location
  | .line number => .line (number + count)
  | .node position => .node (position.moveDown count)

/-- The lint this many lines further down. -/
def Lint.moveDown (count : Nat) (lint : Lint) : Lint :=
  { lint with location := lint.location.moveDown count }

namespace AttributesWrapper

section Parts

variable {style : Style} {first second joined : Document} (h : Joins first second joined) {n : Nat}
include h

theorem reported_of_le (hn : n ≤ first.lineCount) :
    Reported style joined n ↔ Reported style first n := by
  rw [Reported, Reported, h.line?_of_le hn, h.exempt_of_le hn]

theorem reported_add (hn : 1 ≤ n) :
    Reported style joined (n + first.lineCount) ↔ Reported style second n := by
  rw [Reported, Reported, h.line?_add hn, h.exempt_add hn]

theorem lintOfLine_of_le (hn : n ≤ first.lineCount) :
    lintOfLine style joined n = lintOfLine style first n := by
  rw [lintOfLine, lintOfLine, anchor, anchor, h.firstLoose?_of_le hn]

theorem lintOfLine_add (hn : 1 ≤ n) :
    lintOfLine style joined (n + first.lineCount)
      = (lintOfLine style second n).moveDown first.lineCount := by
  rw [lintOfLine, lintOfLine, anchor, anchor, h.firstLoose?_add hn]
  cases Template.firstLoose? (Template.attributesOf second.elements) n with
  | none => rfl
  | some item => rfl

/-- The lints on the lines of the first part are its lints. -/
theorem lints_upper (style : Style) :
    ((List.range' 1 first.lineCount).filter (fun line => Reported style joined line)).map
        (lintOfLine style joined)
      = run style first := by
  have hbound : ∀ n ∈ List.range' 1 first.lineCount, n ≤ first.lineCount := by
    intro n hn
    rw [List.mem_range'_1] at hn
    omega
  have hfilter : (List.range' 1 first.lineCount).filter (fun line => Reported style joined line)
      = (List.range' 1 first.lineCount).filter (fun line => Reported style first line) := by
    refine List.filter_congr fun n hn => ?_
    rw [decide_eq_decide]
    exact reported_of_le h (hbound n hn)
  rw [hfilter, run_eq_map_filter]
  exact List.map_congr_left fun n hn => lintOfLine_of_le h (hbound n (List.mem_filter.1 hn).1)

/-- The lints on the lines of the second part are its lints, moved down. -/
theorem lints_lower (style : Style) :
    ((List.range' (1 + first.lineCount) second.lineCount).filter
        (fun line => Reported style joined line)).map (lintOfLine style joined)
      = (run style second).map (Lint.moveDown first.lineCount) := by
  have hbound : ∀ n ∈ List.range' 1 second.lineCount, 1 ≤ n := by
    intro n hn
    rw [List.mem_range'_1] at hn
    exact hn.1
  have hmoved : List.range' (1 + first.lineCount) second.lineCount
      = (List.range' 1 second.lineCount).map (· + first.lineCount) := by
    rw [Nat.add_comm 1, ← List.map_add_range']
    exact List.map_congr_left fun n _ => Nat.add_comm _ _
  have hfilter : (List.range' 1 second.lineCount).filter
        ((fun line => decide (Reported style joined line)) ∘ (· + first.lineCount))
      = (List.range' 1 second.lineCount).filter (fun line => Reported style second line) := by
    refine List.filter_congr fun n hn => ?_
    rw [Function.comp_apply, decide_eq_decide]
    exact reported_add h (hbound n hn)
  rw [hmoved, List.filter_map, hfilter, run_eq_map_filter, List.map_map, List.map_map]
  exact List.map_congr_left fun n hn => lintOfLine_add h (hbound n (List.mem_filter.1 hn).1)

/-- The lints of the first part, and then those of the second part moved down. -/
theorem run_of_joins (style : Style) :
    run style joined
      = run style first ++ (run style second).map (Lint.moveDown first.lineCount) := by
  rw [run_eq_map_filter, h.lineCount, ← List.range'_append_1, List.filter_append,
    List.map_append, lints_upper h, lints_lower h]

end Parts

/-- Two sources, one behind the other, with their trees side by side have the lints of the first
and then those of the second, as many lines further down as the first has.  The first source is
complete, its tree marks no line below its lines, and that of the second no line above its own. -/
theorem run_append_sources (style : Style) {first second : String} {upper lower : Node}
    (position : Position) (hcomplete : first = "" ∨ first.toList.getLast? = some '\n')
    (hupper : ∀ element ∈ upper.elements, ∀ n ∈ element.lines,
      n ≤ (Document.ofSource first upper).lineCount)
    (hlower : ∀ element ∈ lower.elements, ∀ n ∈ element.lines, 1 ≤ n) :
    run style (.ofSource (first ++ second) (.other position
        [upper, lower.moveDown (Document.ofSource first upper).lineCount]))
      = run style (.ofSource first upper)
        ++ (run style (.ofSource second lower)).map
          (Lint.moveDown (Document.ofSource first upper).lineCount) :=
  run_of_joins (Template.joins_ofSource position hcomplete hupper hlower) style

/-- A tree for two lines, with an attribute at the end of the second. -/
def upperTree : Node :=
  .element "ul" ⟨1, none⟩ .absent
    [.element "li" ⟨2, some 3⟩ ⟨⟨2, none⟩, [⟨"a", .expression "b", ⟨2, some 6⟩⟩]⟩ []]

/-- A tree for the second of two lines, with an attribute that is shorthand and one that is not. -/
def lowerTree : Node :=
  .element "q" ⟨2, none⟩
    ⟨⟨2, none⟩, [⟨"class", .static "r", ⟨2, none⟩⟩, ⟨"e", .expression "f", ⟨2, some 5⟩⟩]⟩ []

theorem run_append_sources_mixed_endings :
    "ul\r\n  li a=b\n".toList.getLast? = some '\n' ∧
      (∀ element ∈ upperTree.elements, ∀ n ∈ element.lines, n ≤ 2) ∧
      (∀ element ∈ lowerTree.elements, ∀ n ∈ element.lines, 1 ≤ n) ∧
      run .square (.ofSource ("ul\r\n  li a=b\n" ++ "p(c=d)\r\nq.r e=f") (.other ⟨7, none⟩
          [upperTree, lowerTree.moveDown 2]))
        = run .square (.ofSource "ul\r\n  li a=b\n" upperTree)
          ++ (run .square (.ofSource "p(c=d)\r\nq.r e=f" lowerTree)).map (Lint.moveDown 2) ∧
      run .square (.ofSource "ul\r\n  li a=b\n" upperTree)
        = [lintAt .square (.node ⟨2, some 6⟩)] ∧
      run .square (.ofSource "p(c=d)\r\nq.r e=f" lowerTree)
        = [lintAt .square (.line 1), lintAt .square (.node ⟨2, some 5⟩)] := by
  have hcomplete : "ul\r\n  li a=b\n".toList.getLast? = some '\n' := by decide
  have hupper : ∀ element ∈ upperTree.elements, ∀ n ∈ element.lines, n ≤ 2 := by decide
  have hlower : ∀ element ∈ lowerTree.elements, ∀ n ∈ element.lines, 1 ≤ n := by decide
  exact ⟨hcomplete, hupper, hlower,
    run_append_sources .square ⟨7, none⟩ (Or.inr hcomplete) hupper hlower, by decide, by decide⟩

end AttributesWrapper
end WrapLint
