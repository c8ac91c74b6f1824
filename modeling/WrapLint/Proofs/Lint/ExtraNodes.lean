import Mathlib.Data.List.Perm.Basic
import Mathlib.Tactic.Common
import WrapLint.Proofs.Lint.TreeShape

/-!
# More nodes in the tree

A tree may describe more of a source or less of it.  More nodes can take a lint away, from a line
that had nothing on it and now has only shorthand; they can bring a lint back, on a line that had
only shorthand and now has more; and they can do nothing else to which lines have a lint.

**Results.**
* `Grown.perm_elements`: a tree with subtrees put in has its elements and theirs.
* `run_of_grown`: what subtrees put into a tree change in the lints.
-/

namespace WrapLint


namespace Template

mutual

/-- A node with subtrees put into it: the second node is the first with the nodes of the list,
from left to right, put into lists of children, in front of, between or behind what is there. -/
inductive Grown : Node → Node → List Node → Prop
  | element {tag : String} {position : Position} {attributes : AttributeList}
      {children grown extra : List Node} (h : GrownAll children grown extra) :
      Grown (.element tag position attributes children) (.element tag position attributes grown)
        extra
  | attributeList {list : AttributeList} : Grown (.attributeList list) (.attributeList list) []
  | attr {item : Attribute} : Grown (.attr item) (.attr item) []
  | other {position : Position} {children grown extra : List Node}
      (h : GrownAll children grown extra) :
      Grown (.other position children) (.other position grown) extra

/-- The same for a list of children, each of which may grow itself. -/
inductive GrownAll : List Node → List Node → List Node → Prop
  | nil : GrownAll [] [] []
  | insert {nodes grown extra : List Node} (node : Node) (h : GrownAll nodes grown extra) :
      GrownAll nodes (node :: grown) (node :: extra)
  | keep {node grownNode : Node} {nodes grown inside extra : List Node}
      (h : Grown node grownNode inside) (hrest : GrownAll nodes grown extra) :
      GrownAll (node :: nodes) (grownNode :: grown) (inside ++ extra)

end

/-- The elements of several nodes are those of the first and those of the others. -/
theorem Node.elementsAll_append (xs ys : List Node) :
    Node.elementsAll (xs ++ ys) = Node.elementsAll xs ++ Node.elementsAll ys := by
  induction xs with
  | nil => rfl
  | cons node nodes ih => simp [ih]

mutual

/-- A tree with subtrees put in has its elements and theirs. -/
theorem Grown.perm_elements : ∀ {node grown : Node} {extra : List Node},
    Grown node grown extra → grown.elements.Perm (node.elements ++ Node.elementsAll extra)
  | _, _, _, .element h => by
      rw [Node.elements_element, Node.elements_element, List.cons_append]
      exact h.perm_elementsAll.cons _
  | _, _, _, .attributeList => by
      rw [Node.elementsAll_nil, List.append_nil]
  | _, _, _, .attr => by
      rw [Node.elementsAll_nil, List.append_nil]
  | _, _, _, .other h => by
      rw [Node.elements_other, Node.elements_other]
      exact h.perm_elementsAll

theorem GrownAll.perm_elementsAll : ∀ {nodes grown extra : List Node},
    GrownAll nodes grown extra →
      (Node.elementsAll grown).Perm (Node.elementsAll nodes ++ Node.elementsAll extra)
  | _, _, _, .nil => List.Perm.refl _
  | _, _, _, .insert node h => by
      rw [Node.elementsAll_cons, Node.elementsAll_cons]
      exact (h.perm_elementsAll.append_left _).trans (List.perm_append_comm_assoc _ _ _)
  | _, _, _, .keep h hrest => by
      rw [Node.elementsAll_cons, Node.elementsAll_cons, Node.elementsAll_append]
      -- What grew inside the first child comes before the other children, and has to change
      -- places with them.
      refine (h.perm_elements.append hrest.perm_elementsAll).trans ?_
      rw [List.append_assoc, List.append_assoc]
      exact (List.perm_append_comm_assoc _ _ _).append_left _

end

section Lines

variable {node grown : Node} {extra : List Node} (h : Grown node grown extra) (n : Nat)
include h

theorem Grown.occupied_iff :
    Occupied grown.elements n ↔
      Occupied node.elements n ∨ Occupied (Node.elementsAll extra) n := by
  rw [occupied_congr (h.perm_elements.map ElementView.outline), occupied_append]

theorem Grown.loose_iff :
    Loose grown.elements n ↔ Loose node.elements n ∨ Loose (Node.elementsAll extra) n := by
  rw [loose_congr (h.perm_elements.map ElementView.outline), loose_append]

end Lines

end Template

open Template (Document Node Position Occupied Loose Grown)

namespace AttributesWrapper

section Changes

variable {style : Style} {source : String} {root grown : Node} {extra : List Node} {n : Nat}

/-- A line loses its lint iff the lint pointed at the line as such and the subtrees put elements
or attributes on it, and now all attributes on it are shorthand. -/
theorem reports_lost_iff (h : Grown root grown extra) :
    reports style (.ofSource source root) n = true ∧
        reports style (.ofSource source grown) n = false ↔
      AtLine style (.ofSource source root) n ∧
        Occupied (Node.elementsAll extra) n ∧ ¬ Loose grown.elements n := by
  have hsame : lineViolates style (.ofSource source grown) n
      = lineViolates style (.ofSource source root) n := rfl
  rw [reports_eq_true_iff_loose, reports_eq_false_iff_not_loose, atLine_iff, hsame]
  simp only [Document.elements_ofSource, h.occupied_iff n, h.loose_iff n]
  constructor
  · rintro ⟨⟨hviolates, hloose⟩, hlost⟩
    obtain ⟨hoccupied, htight⟩ := hlost hviolates
    have hfree : ¬ Occupied root.elements n := fun hroot => htight (Or.inl (hloose hroot))
    exact ⟨⟨hviolates, hfree⟩, hoccupied.resolve_left hfree, htight⟩
  · rintro ⟨⟨hviolates, hfree⟩, hextra, htight⟩
    exact ⟨⟨hviolates, fun hroot => absurd hroot hfree⟩, fun _ => ⟨Or.inr hextra, htight⟩⟩

/-- A line gains a lint iff its text breaks the style, it was exempt, and the subtrees put an
attribute on it that is more than shorthand. -/
theorem reports_gained_iff (h : Grown root grown extra) :
    reports style (.ofSource source root) n = false ∧
        reports style (.ofSource source grown) n = true ↔
      lineViolates style (.ofSource source root) n = true ∧
        (Document.ofSource source root).Exempt n ∧ Loose (Node.elementsAll extra) n := by
  have hsame : lineViolates style (.ofSource source grown) n
      = lineViolates style (.ofSource source root) n := rfl
  rw [reports_eq_true_iff_loose, reports_eq_false_iff_not_loose, hsame,
    Document.exempt_iff_not_loose]
  simp only [Document.elements_ofSource, h.occupied_iff n, h.loose_iff n]
  constructor
  · rintro ⟨hlost, hviolates, hloose⟩
    obtain ⟨hoccupied, htight⟩ := hlost hviolates
    exact ⟨hviolates, ⟨hoccupied, htight⟩, (hloose (Or.inl hoccupied)).resolve_left htight⟩
  · rintro ⟨hviolates, hexempt, hextra⟩
    exact ⟨fun _ => hexempt, hviolates, fun _ => Or.inr hextra⟩

/-- A lint at an attribute is still one at an attribute. -/
theorem atNode_of_grown (h : Grown root grown extra)
    (hnode : AtNode style (.ofSource source root) n) :
    AtNode style (.ofSource source grown) n := by
  obtain ⟨hviolates, hloose⟩ := atNode_iff.1 hnode
  exact atNode_iff.2 ⟨hviolates, (h.loose_iff n).2 (Or.inl hloose)⟩

/-- Under a tree with nothing in it, the lints are those of the lines that break the style, and
each points at its line. -/
theorem atLine_bare_iff (position : Position) :
    AtLine style (.ofSource source (.other position [])) n ↔
      lineViolates style (.ofSource source (.other position [])) n = true := by
  rw [atLine_iff]
  simp [Occupied]

end Changes

/-- What subtrees put into a tree change.  A reported line breaks the style as text, so it has a
lint without any tree.  A lint at an attribute stays one.  A line that loses its lint had it at
the line as such, and the subtrees put elements or attributes on it, all of them shorthand.  A
line that gains a lint was exempt, and the subtrees put an attribute on it that is more. -/
theorem run_of_grown {root grown : Node} {extra : List Node} (h : Grown root grown extra)
    (style : Style) (source : String) (n : Nat) :
    (reports style (.ofSource source grown) n = true →
        (∃ text ∈ (Document.ofSource source grown).line? n,
          Line.violates style text.toList = true) ∧
        ∀ position, AtLine style (.ofSource source (.other position [])) n) ∧
      (AtNode style (.ofSource source root) n → AtNode style (.ofSource source grown) n) ∧
      (reports style (.ofSource source root) n = true ∧
          reports style (.ofSource source grown) n = false ↔
        AtLine style (.ofSource source root) n ∧
          Occupied (Node.elementsAll extra) n ∧ ¬ Loose grown.elements n) ∧
      (reports style (.ofSource source root) n = false ∧
          reports style (.ofSource source grown) n = true ↔
        lineViolates style (.ofSource source root) n = true ∧
          (Document.ofSource source root).Exempt n ∧ Loose (Node.elementsAll extra) n) := by
  refine ⟨fun hreports => ?_, atNode_of_grown h, reports_lost_iff h, reports_gained_iff h⟩
  have hviolates := (reports_eq_true_iff_loose.1 hreports).1
  exact ⟨(lineViolates_iff n).1 hviolates, fun position => (atLine_bare_iff position).2 hviolates⟩

/-- Three lines with bare attributes. -/
def rows : String :=
  "div a=b\np.a b=c\nq c=d\n"

/-- A tree for these lines, with nothing on the first. -/
def sparse : Node :=
  .other ⟨1, none⟩
    [.element "p" ⟨2, none⟩ ⟨⟨2, none⟩, [⟨"class", .static "a", ⟨2, none⟩⟩]⟩ [],
      .element "q" ⟨3, none⟩ ⟨⟨3, none⟩, [⟨"c", .expression "d", ⟨3, some 3⟩⟩]⟩ []]

/-- The same with an element for the first line, and one that has an attribute on the second. -/
def dense : Node :=
  .other ⟨1, none⟩
    [.element "div" ⟨1, none⟩ .absent [],
      .element "p" ⟨2, none⟩ ⟨⟨2, none⟩, [⟨"class", .static "a", ⟨2, none⟩⟩]⟩
        [.element "b" ⟨4, none⟩ ⟨⟨2, none⟩, [⟨"b", .expression "c", ⟨2, some 5⟩⟩]⟩ []],
      .element "q" ⟨3, none⟩ ⟨⟨3, none⟩, [⟨"c", .expression "d", ⟨3, some 3⟩⟩]⟩ []]

/-- The subtrees that were put in. -/
def added : List Node :=
  [.element "div" ⟨1, none⟩ .absent [],
    .element "b" ⟨4, none⟩ ⟨⟨2, none⟩, [⟨"b", .expression "c", ⟨2, some 5⟩⟩]⟩ []]

theorem run_of_grown_three_lines :
    Grown sparse dense added ∧
      (reports .round (.ofSource rows sparse) 1 = true ∧
        reports .round (.ofSource rows dense) 1 = false ∧
        Occupied (Node.elementsAll added) 1 ∧ ¬ Loose dense.elements 1) ∧
      (reports .round (.ofSource rows sparse) 2 = false ∧
        reports .round (.ofSource rows dense) 2 = true ∧
        (Document.ofSource rows sparse).Exempt 2 ∧
        Loose (Node.elementsAll added) 2) ∧
      (AtNode .round (.ofSource rows sparse) 3 ∧
        AtNode .round (.ofSource rows dense) 3) := by
  have h : Grown sparse dense added :=
    .other (.insert _ (.keep (.element (.insert _ .nil)) (.keep (.element .nil) .nil)))
  obtain ⟨-, -, hlost, -⟩ := run_of_grown h .round rows 1
  obtain ⟨-, -, -, hgained⟩ := run_of_grown h .round rows 2
  obtain ⟨-, hnode, -, -⟩ := run_of_grown h .round rows 3
  have hfirst := hlost.2 ⟨by decide, by decide, by decide⟩
  have hsecond := hgained.2 ⟨by decide, by decide, by decide⟩
  have hthird : AtNode .round (.ofSource rows sparse) 3 :=
    ⟨⟨3, some 3⟩, rfl, by decide⟩
  exact ⟨h, ⟨hfirst.1, hfirst.2, by decide, by decide⟩,
    ⟨hsecond.1, hsecond.2, by decide, by decide⟩, hthird, hnode hthird⟩

end AttributesWrapper
end WrapLint
