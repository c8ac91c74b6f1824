import WrapLint.Template.Node

/-!
# Walking a syntax tree

**Input.**  A node and a visitor: a state and one function for each kind of node, which
says how the state changes when such a node is met.

**Algorithm.**  Depth first, a node before its children.  An element comes first, then its
attribute list, then the attributes of that list, then the children.

**Contents.**  `Node.walk` carries the state through the tree.  `Node.visits` lists what is
met, in the same order, with no state at all.
-/

namespace WrapLint
namespace Template

/-- What is met on a walk. -/
inductive Visit where
  | element (tag : String) (position : Position) (attributes : AttributeList)
      (children : List Node)
  | attributeList (list : AttributeList)
  | attr (item : Attribute)
  | other (position : Position) (children : List Node)

/-- One function for each kind of node.  A kind that is left out changes nothing. -/
structure Visitor (σ : Type) where
  onElement : String → Position → AttributeList → List Node → σ → σ :=
    fun _ _ _ _ s => s
  onAttributeList : AttributeList → σ → σ := fun _ s => s
  onAttribute : Attribute → σ → σ := fun _ s => s
  onOther : Position → List Node → σ → σ := fun _ _ s => s

variable {σ : Type}

/-- The state after one visit. -/
def Visitor.meet (visitor : Visitor σ) (state : σ) : Visit → σ
  | .element tag position attributes children =>
    visitor.onElement tag position attributes children state
  | .attributeList list => visitor.onAttributeList list state
  | .attr item => visitor.onAttribute item state
  | .other position children => visitor.onOther position children state

/-- The state after a list of attributes: the list itself, then each attribute in turn. -/
def AttributeList.walk (visitor : Visitor σ) (list : AttributeList) (state : σ) : σ :=
  list.attributes.foldl (fun state item => visitor.onAttribute item state)
    (visitor.onAttributeList list state)

mutual

/-- The state after a walk over a node and everything below it. -/
def Node.walk (visitor : Visitor σ) : Node → σ → σ
  | .element tag position attributes children, state =>
    Node.walkAll visitor children
      (attributes.walk visitor (visitor.onElement tag position attributes children state))
  | .attributeList list, state => list.walk visitor state
  | .attr item, state => visitor.onAttribute item state
  | .other position children, state =>
    Node.walkAll visitor children (visitor.onOther position children state)

/-- The state after a walk over several nodes, from left to right. -/
def Node.walkAll (visitor : Visitor σ) : List Node → σ → σ
  | [], state => state
  | node :: nodes, state => Node.walkAll visitor nodes (Node.walk visitor node state)

end

/-- The visits of a list of attributes. -/
def AttributeList.visits (list : AttributeList) : List Visit :=
  .attributeList list :: list.attributes.map .attr

mutual

/-- The visits of a node and everything below it. -/
def Node.visits : Node → List Visit
  | .element tag position attributes children =>
    .element tag position attributes children :: (attributes.visits ++ Node.visitsAll children)
  | .attributeList list => list.visits
  | .attr item => [.attr item]
  | .other position children => .other position children :: Node.visitsAll children

/-- The visits of several nodes, from left to right. -/
def Node.visitsAll : List Node → List Visit
  | [] => []
  | node :: nodes => Node.visits node ++ Node.visitsAll nodes

end

end Template
end WrapLint
