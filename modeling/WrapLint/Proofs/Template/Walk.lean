import Mathlib.Tactic.Common
import WrapLint.Template.Document

/-!
# A walk is a fold over its visits

Walking carries a state through the tree; the list of visits has no state.  The two agree: the
state after a walk is what the visits make of the state before, from left to right.  From then
on a walk is reasoned about as a fold over a list.

**Results.**
* `Node.walk_eq_foldl`: the walk over a node and everything below it.
* `Document.walk_eq_foldl_elements`: a visitor that only minds elements sees the elements of
  the document, in the order of the walk.
* `Node.elements_element`, `Node.elements_other`: the elements of a tree, by its nodes.
-/

namespace WrapLint
namespace Template

section Fold

variable {σ : Type} (visitor : Visitor σ)

theorem AttributeList.walk_eq_foldl (list : AttributeList) (state : σ) :
    list.walk visitor state = list.visits.foldl visitor.meet state := by
  rw [AttributeList.walk, AttributeList.visits, List.foldl_cons, List.foldl_map]
  rfl

mutual

/-- A walk over a node is the fold of its visits. -/
theorem Node.walk_eq_foldl : ∀ (node : Node) (state : σ),
    node.walk visitor state = node.visits.foldl visitor.meet state
  | .element tag position attributes children, state => by
      rw [Node.walk, Node.visits, List.foldl_cons, List.foldl_append,
        AttributeList.walk_eq_foldl, Node.walkAll_eq_foldl children]
      rfl
  | .attributeList list, state => by
      rw [Node.walk, Node.visits, AttributeList.walk_eq_foldl]
  | .attr item, state => by
      rw [Node.walk, Node.visits]
      rfl
  | .other position children, state => by
      rw [Node.walk, Node.visits, List.foldl_cons, Node.walkAll_eq_foldl children]
      rfl

/-- A walk over several nodes is the fold of all their visits. -/
theorem Node.walkAll_eq_foldl : ∀ (nodes : List Node) (state : σ),
    Node.walkAll visitor nodes state = (Node.visitsAll nodes).foldl visitor.meet state
  | [], state => rfl
  | node :: nodes, state => by
      rw [Node.walkAll, Node.visitsAll, List.foldl_append, Node.walk_eq_foldl node,
        Node.walkAll_eq_foldl nodes]

end

end Fold

section Elements

/-- What a check sees of an element: where it stands and its list of attributes. -/
structure ElementView where
  position : Position
  list : AttributeList

/-- The element that is met, if it is one. -/
def Visit.element? : Visit → Option ElementView
  | .element _ position list _ => some ⟨position, list⟩
  | .attributeList _ | .attr _ | .other _ _ => none

/-- The elements of a node and everything below it, a parent before its children. -/
def Node.elements (node : Node) : List ElementView :=
  node.visits.filterMap Visit.element?

/-- The elements of several nodes, from left to right. -/
def Node.elementsAll (nodes : List Node) : List ElementView :=
  (Node.visitsAll nodes).filterMap Visit.element?

/-- The elements of a document, a parent before its children. -/
def Document.elements (document : Document) : List ElementView :=
  document.root.visits.filterMap Visit.element?

/-- The attributes in the lists of these elements, in the order of a walk. -/
def attributesOf (elements : List ElementView) : List Attribute :=
  elements.flatMap (fun element => element.list.attributes)

/-- A visitor that only minds elements folds its function over the elements. -/
theorem foldl_meet_eq_foldl_elements {σ : Type} (f : Position → AttributeList → σ → σ)
    (visits : List Visit) (state : σ) :
    visits.foldl
        (Visitor.meet { onElement := fun _ position list _ state => f position list state })
        state
      = (visits.filterMap Visit.element?).foldl
        (fun state element => f element.position element.list state) state := by
  induction visits generalizing state with
  | nil => rfl
  | cons visit visits ih =>
      cases visit with
      | element tag position attributes children => exact ih (f position attributes state)
      | attributeList list => exact ih state
      | attr item => exact ih state
      | other position children => exact ih state

theorem filterMap_element?_visits (list : AttributeList) :
    list.visits.filterMap Visit.element? = [] := by
  rw [AttributeList.visits, List.filterMap_cons_none rfl, List.filterMap_map]
  exact List.filterMap_eq_nil_iff.2 fun _ _ => rfl

/-- The attributes of an element are no elements; its children are met after it. -/
@[simp] theorem Node.elements_element (tag : String) (position : Position)
    (list : AttributeList) (children : List Node) :
    (Node.element tag position list children).elements
      = ⟨position, list⟩ :: Node.elementsAll children := by
  have hmet : (Visit.element tag position list children).element? = some ⟨position, list⟩ := rfl
  rw [Node.elements, Node.visits, List.filterMap_cons_some hmet, List.filterMap_append,
    filterMap_element?_visits]
  rfl

@[simp] theorem Node.elements_attributeList (list : AttributeList) :
    (Node.attributeList list).elements = [] := by
  rw [Node.elements, Node.visits, filterMap_element?_visits]

@[simp] theorem Node.elements_attr (item : Attribute) : (Node.attr item).elements = [] :=
  rfl

@[simp] theorem Node.elements_other (position : Position) (children : List Node) :
    (Node.other position children).elements = Node.elementsAll children := by
  rw [Node.elements, Node.visits, List.filterMap_cons_none rfl]
  rfl

@[simp] theorem Node.elementsAll_nil : Node.elementsAll [] = [] :=
  rfl

@[simp] theorem Node.elementsAll_cons (node : Node) (nodes : List Node) :
    Node.elementsAll (node :: nodes) = node.elements ++ Node.elementsAll nodes := by
  rw [Node.elementsAll, Node.visitsAll, List.filterMap_append]
  rfl

@[simp] theorem Document.elements_ofSource (source : String) (root : Node) :
    (Document.ofSource source root).elements = root.elements :=
  rfl

theorem Document.walk_eq_foldl_elements {σ : Type} (document : Document)
    (f : Position → AttributeList → σ → σ) (state : σ) :
    document.walk { onElement := fun _ position list _ state => f position list state } state
      = document.elements.foldl
        (fun state element => f element.position element.list state) state := by
  rw [Document.walk, Node.walk_eq_foldl, foldl_meet_eq_foldl_elements]
  rfl

end Elements

end Template
end WrapLint
