import Mathlib.Tactic.Common
import WrapLint.Proofs.Lint.TreePass
import WrapLint.Proofs.Template.Lines

/-!
# One document under another

Two documents are put together by putting the lines of the second behind those of the first and
moving its tree down by as many lines.  If each tree stays on the lines of its own document, then
no line of the whole sees both: a line of the first part is what it was, and a line of the second
part is what it was further up.

**Results.**
* `Node.elements_moveDown`: the elements of a tree that was moved down.
* `Joins`: a document that is made of two in this way.
* `Joins.line?_of_le`, `Joins.exempt_of_le`, `Joins.firstLoose?_of_le`: a line of the first part.
* `Joins.line?_add`, `Joins.exempt_add`, `Joins.firstLoose?_add`: a line of the second part.
-/

namespace WrapLint
namespace Template

section Moving

variable (count : Nat)

/-- The place this many lines further down. -/
def Position.moveDown (position : Position) : Position :=
  { position with line := position.line + count }

/-- The attribute this many lines further down. -/
def Attribute.moveDown (item : Attribute) : Attribute :=
  { item with position := item.position.moveDown count }

def AttributeList.moveDown (list : AttributeList) : AttributeList :=
  ⟨list.position.moveDown count, list.attributes.map (Attribute.moveDown count)⟩

mutual

/-- The node and everything below it this many lines further down. -/
def Node.moveDown : Node → Node
  | .element tag position attributes children =>
    .element tag (position.moveDown count) (attributes.moveDown count)
      (Node.moveDownAll children)
  | .attributeList list => .attributeList (list.moveDown count)
  | .attr item => .attr (item.moveDown count)
  | .other position children => .other (position.moveDown count) (Node.moveDownAll children)

/-- Several nodes this many lines further down. -/
def Node.moveDownAll : List Node → List Node
  | [] => []
  | node :: nodes => Node.moveDown node :: Node.moveDownAll nodes

end

def ElementView.moveDown (element : ElementView) : ElementView :=
  ⟨element.position.moveDown count, element.list.moveDown count⟩

mutual

/-- A tree that is moved down has its elements moved down. -/
theorem Node.elements_moveDown : ∀ node : Node,
    (node.moveDown count).elements = node.elements.map (ElementView.moveDown count)
  | .element tag position attributes children => by
      rw [Node.moveDown, Node.elements_element, Node.elements_element, List.map_cons,
        Node.elementsAll_moveDownAll children]
      rfl
  | .attributeList list => by
      rw [Node.moveDown, Node.elements_attributeList, Node.elements_attributeList, List.map_nil]
  | .attr item => rfl
  | .other position children => by
      rw [Node.moveDown, Node.elements_other, Node.elements_other,
        Node.elementsAll_moveDownAll children]

theorem Node.elementsAll_moveDownAll : ∀ nodes : List Node,
    Node.elementsAll (Node.moveDownAll count nodes)
      = (Node.elementsAll nodes).map (ElementView.moveDown count)
  | [] => rfl
  | node :: nodes => by
      rw [Node.moveDownAll, Node.elementsAll_cons, Node.elementsAll_cons, List.map_append,
        Node.elements_moveDown node, Node.elementsAll_moveDownAll nodes]

end

end Moving

section Lines

variable {count n : Nat} {elements : List ElementView}

/-- The lines of an element: its own and those of its attributes. -/
def ElementView.lines (element : ElementView) : List Nat :=
  element.position.line :: element.list.attributes.map Attribute.line

theorem occupied_iff_lines :
    Occupied elements n ↔ ∃ element ∈ elements, n ∈ element.lines := by
  simp [Occupied, ElementView.lines, eq_comm]

/-- The lines of an element move with it. -/
theorem ElementView.lines_moveDown (element : ElementView) :
    (element.moveDown count).lines = element.lines.map (· + count) := by
  rw [lines, lines, List.map_cons, List.map_map, moveDown, AttributeList.moveDown, List.map_map]
  rfl

theorem occupied_map_moveDown_iff :
    Occupied (elements.map (ElementView.moveDown count)) n ↔
      ∃ m, Occupied elements m ∧ m + count = n := by
  rw [occupied_iff_lines]
  constructor
  · rintro ⟨moved, hmoved, hline⟩
    obtain ⟨element, he, rfl⟩ := List.mem_map.1 hmoved
    rw [ElementView.lines_moveDown] at hline
    obtain ⟨m, hm, rfl⟩ := List.mem_map.1 hline
    exact ⟨m, occupied_iff_lines.2 ⟨element, he, hm⟩, rfl⟩
  · rintro ⟨m, hoccupied, rfl⟩
    obtain ⟨element, he, hm⟩ := occupied_iff_lines.1 hoccupied
    refine ⟨_, List.mem_map_of_mem he, ?_⟩
    rw [ElementView.lines_moveDown]
    exact List.mem_map_of_mem hm

theorem attributesOf_map_moveDown :
    attributesOf (elements.map (ElementView.moveDown count))
      = (attributesOf elements).map (Attribute.moveDown count) := by
  rw [attributesOf, attributesOf, List.flatMap_map, List.map_flatMap]
  rfl

/-- The first attribute on a line that is more than shorthand moves with the line. -/
theorem firstLoose?_map_moveDown (items : List Attribute) :
    firstLoose? (items.map (Attribute.moveDown count)) (n + count)
      = (firstLoose? items n).map (Attribute.moveDown count) := by
  rw [firstLoose?, firstLoose?, List.find?_map]
  congr 2
  funext item
  have hline : ((item.moveDown count).line == n + count) = (item.line == n) := by
    rw [Bool.eq_iff_iff, beq_iff_eq, beq_iff_eq]
    exact Nat.add_right_cancel_iff
  rw [Function.comp_apply, hline]
  rfl

/-- On a line with nothing on it there is no attribute. -/
theorem firstLoose?_eq_none_of_not_occupied (h : ¬ Occupied elements n) :
    firstLoose? (attributesOf elements) n = none :=
  (firstLoose?_eq_none_iff_not_loose elements n).2 fun hloose => h hloose.occupied

end Lines

/-- A document is made of two: it has the lines of the one and then those of the other, and the
elements of the one and then those of the other, moved down.  Those of the first are on its lines
or above, and those of the second are not above its lines. -/
structure Joins (first second joined : Document) : Prop where
  lines : joined.lines = first.lines ++ second.lines
  elements : joined.elements
    = first.elements ++ second.elements.map (ElementView.moveDown first.lineCount)
  upper : ∀ n, Occupied first.elements n → n ≤ first.lineCount
  lower : ∀ n, Occupied second.elements n → 1 ≤ n

namespace Joins

variable {first second joined : Document} (h : Joins first second joined) {n : Nat}
include h

theorem lineCount : joined.lineCount = first.lineCount + second.lineCount := by
  rw [Document.lineCount, h.lines, List.length_append]
  rfl

section Upper

variable (hn : n ≤ first.lineCount)
include hn

theorem line?_of_le : joined.line? n = first.line? n := by
  unfold Document.line?
  split
  · rfl
  · rename_i hpos
    unfold Document.lineCount at hn
    rw [h.lines, List.getElem?_append_left (by omega)]

/-- Nothing of the second part is moved to a line of the first. -/
theorem not_occupied_moveDown :
    ¬ Occupied (second.elements.map (ElementView.moveDown first.lineCount)) n := by
  rw [occupied_map_moveDown_iff]
  rintro ⟨m, hm, rfl⟩
  have hpositive := h.lower m hm
  omega

theorem firstLoose?_of_le :
    firstLoose? (attributesOf joined.elements) n
      = firstLoose? (attributesOf first.elements) n := by
  rw [h.elements, attributesOf_append, firstLoose?_append,
    firstLoose?_eq_none_of_not_occupied (h.not_occupied_moveDown hn), Option.or_none]

theorem exempt_of_le : joined.Exempt n ↔ first.Exempt n := by
  rw [Document.exempt_iff, Document.exempt_iff, h.firstLoose?_of_le hn, h.elements,
    occupied_append, or_iff_left (h.not_occupied_moveDown hn)]

end Upper

/- A line of the second part: its number there, and as many more as the first part has lines. -/
section Lower

variable (hn : 1 ≤ n)
include hn

theorem line?_add : joined.line? (n + first.lineCount) = second.line? n := by
  unfold Document.line?
  rw [if_neg (by omega), if_neg (by omega), h.lines]
  unfold Document.lineCount
  rw [List.getElem?_append_right (by omega)]
  congr 1
  omega

/-- Nothing of the first part stands on a line of the second. -/
theorem not_occupied_add : ¬ Occupied first.elements (n + first.lineCount) := by
  intro hoccupied
  have hwithin := h.upper _ hoccupied
  omega

theorem firstLoose?_add :
    firstLoose? (attributesOf joined.elements) (n + first.lineCount)
      = (firstLoose? (attributesOf second.elements) n).map
        (Attribute.moveDown first.lineCount) := by
  rw [h.elements, attributesOf_append, firstLoose?_append,
    firstLoose?_eq_none_of_not_occupied (h.not_occupied_add hn), Option.none_or,
    attributesOf_map_moveDown, firstLoose?_map_moveDown]

theorem exempt_add : joined.Exempt (n + first.lineCount) ↔ second.Exempt n := by
  have hoccupied : Occupied joined.elements (n + first.lineCount) ↔
      Occupied second.elements n := by
    rw [h.elements, occupied_append, or_iff_right (h.not_occupied_add hn),
      occupied_map_moveDown_iff]
    simp
  rw [Document.exempt_iff, Document.exempt_iff, hoccupied, h.firstLoose?_add hn,
    Option.map_eq_none_iff]

end Lower

end Joins

/-- Two sources of which the first is complete, and two trees on their own lines, make one
document. -/
theorem joins_ofSource {first second : String} {upper lower : Node} (position : Position)
    (hcomplete : first = "" ∨ first.toList.getLast? = some '\n')
    (hupper : ∀ element ∈ upper.elements, ∀ n ∈ element.lines,
      n ≤ (Document.ofSource first upper).lineCount)
    (hlower : ∀ element ∈ lower.elements, ∀ n ∈ element.lines, 1 ≤ n) :
    Joins (.ofSource first upper) (.ofSource second lower)
      (.ofSource (first ++ second) (.other position
        [upper, lower.moveDown (Document.ofSource first upper).lineCount])) where
  lines := SourceLines.ofSource_append second hcomplete
  elements := by
    simp [Node.elements_moveDown]
  upper := by
    intro n hoccupied
    obtain ⟨element, he, hn⟩ := occupied_iff_lines.1 hoccupied
    exact hupper element he n hn
  lower := by
    intro n hoccupied
    obtain ⟨element, he, hn⟩ := occupied_iff_lines.1 hoccupied
    exact hlower element he n hn

end Template
end WrapLint
