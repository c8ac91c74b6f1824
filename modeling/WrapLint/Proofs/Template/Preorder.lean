import Mathlib.Data.List.Basic
import Mathlib.Order.Defs.LinearOrder
import WrapLint.Proofs.Template.Walk

/-!
# A walk meets every part of a tree once, in preorder

The parts of a tree are its nodes, the attribute lists of its elements and the attributes in
attribute lists.  Each stands at a place, the numbers of the steps that lead to it.

**Places.**  In an element and in an `other` node the children have the numbers from one on, and
zero leads to the list of attributes of an element.  The attributes of a list have the numbers
from zero on.  A part comes before what is below it, and what is below it comes in the order of
the numbers: that is the lexicographic order of places, so preorder is an increasing list.

**Results.**
* `Node.mem_places_iff`: the list of places has every place where there is a part.
* `Node.pairwise_places`: it increases, so no place occurs twice.
* `Node.map_part?_places`: the parts at these places are the visits of a walk.
* `Node.walk_in_preorder`: what any walk does.
-/

namespace WrapLint
namespace Template

/-- The visit of the node itself. -/
def Node.visit : Node → Visit
  | .element tag position attributes children => .element tag position attributes children
  | .attributeList list => .attributeList list
  | .attr item => .attr item
  | .other position children => .other position children

/-- The part of a list of attributes at this place. -/
def AttributeList.part? (list : AttributeList) : List Nat → Option Visit
  | [] => some (.attributeList list)
  | [i] => list.attributes[i]?.map .attr
  | _ => none

/-- The part of a tree at this place. -/
def Node.part? (node : Node) : List Nat → Option Visit
  | [] => some node.visit
  | i :: place =>
    match node, i with
    | .element _ _ list _, 0 => list.part? place
    | .element _ _ _ children, j + 1 | .other _ children, j + 1 =>
      children[j]?.bind fun child => child.part? place
    | .attributeList list, i => list.part? (i :: place)
    | _, _ => none

/-- The places of a list of attributes, in preorder. -/
def AttributeList.places (list : AttributeList) : List (List Nat) :=
  [] :: (List.range list.attributes.length).map fun i => [i]

mutual

/-- The places of a tree, in preorder. -/
def Node.places : Node → List (List Nat)
  | .element _ _ list children =>
    [] :: (list.places.map (List.cons 0) ++ Node.placesFrom 1 children)
  | .attributeList list => list.places
  | .attr _ => [[]]
  | .other _ children => [] :: Node.placesFrom 1 children

/-- The places of several nodes, the first of which has the number `i`. -/
def Node.placesFrom (i : Nat) : List Node → List (List Nat)
  | [] => []
  | node :: nodes => (Node.places node).map (List.cons i) ++ Node.placesFrom (i + 1) nodes

end

mutual

/-- The elements of a tree, each before those below it. -/
def Node.preorder : Node → List Node
  | .element tag position attributes children =>
    .element tag position attributes children :: Node.preorderAll children
  | .other _ children => Node.preorderAll children
  | .attributeList _ | .attr _ => []

/-- The elements of several trees, from left to right. -/
def Node.preorderAll : List Node → List Node
  | [] => []
  | node :: nodes => Node.preorder node ++ Node.preorderAll nodes

end

/-- The visitor that writes down the elements it meets. -/
def elementRecorder : Visitor (List Node) where
  onElement tag position attributes children met :=
    met ++ [.element tag position attributes children]

section Complete

theorem AttributeList.mem_places_iff {list : AttributeList} {place : List Nat} :
    place ∈ list.places ↔ (list.part? place).isSome := by
  rcases place with _ | ⟨i, _ | ⟨j, place⟩⟩
  · simp [AttributeList.places, AttributeList.part?]
  · simp [AttributeList.places, AttributeList.part?]
  · simp [AttributeList.places, AttributeList.part?]

theorem Node.mem_placesFrom_iff {i : Nat} {nodes : List Node} {place : List Nat} :
    place ∈ Node.placesFrom i nodes ↔
      ∃ j node rest, nodes[j]? = some node ∧ rest ∈ node.places ∧ place = (i + j) :: rest := by
  induction nodes generalizing i with
  | nil => simp [Node.placesFrom]
  | cons node nodes ih =>
      rw [Node.placesFrom, List.mem_append, List.mem_map, ih]
      constructor
      · rintro (⟨rest, hrest, rfl⟩ | ⟨j, child, rest, hchild, hrest, rfl⟩)
        · exact ⟨0, node, rest, rfl, hrest, rfl⟩
        · exact ⟨j + 1, child, rest, hchild, hrest, by rw [Nat.add_right_comm, Nat.add_assoc]⟩
      · rintro ⟨_ | j, child, rest, hchild, hrest, rfl⟩
        · obtain rfl := Option.some.inj hchild
          exact Or.inl ⟨rest, hrest, rfl⟩
        · exact Or.inr ⟨j, child, rest, hchild, hrest,
            by rw [Nat.add_right_comm, Nat.add_assoc]⟩

/-- No child has the number zero. -/
theorem Node.zero_cons_not_mem_placesFrom {nodes : List Node} {rest : List Nat} :
    0 :: rest ∉ Node.placesFrom 1 nodes := by
  rw [Node.mem_placesFrom_iff]
  rintro ⟨j, node, rest', -, -, heq⟩
  have hzero := (List.cons.inj heq).1
  omega

theorem Node.succ_cons_mem_placesFrom_iff {nodes : List Node} {j : Nat} {rest : List Nat} :
    (j + 1) :: rest ∈ Node.placesFrom 1 nodes ↔ ∃ node ∈ nodes[j]?, rest ∈ node.places := by
  rw [Node.mem_placesFrom_iff]
  constructor
  · rintro ⟨j', node, rest', hnode, hrest, heq⟩
    obtain ⟨hj, rfl⟩ := List.cons.inj heq
    obtain rfl : j = j' := by omega
    exact ⟨node, hnode, hrest⟩
  · rintro ⟨node, hnode, hrest⟩
    exact ⟨j, node, rest, hnode, hrest, by rw [Nat.add_comm]⟩

/-- A place is in the list iff a part stands there. -/
theorem Node.mem_places_iff {node : Node} {place : List Nat} :
    place ∈ node.places ↔ (node.part? place).isSome := by
  induction place generalizing node with
  | nil => cases node <;> simp [Node.places, Node.part?, AttributeList.places]
  | cons i place ih =>
      cases node with
      | attributeList list => exact AttributeList.mem_places_iff
      | attr item => simp [Node.places, Node.part?]
      | element tag position list children =>
          cases i with
          | zero =>
              simp [Node.places, Node.part?, Node.zero_cons_not_mem_placesFrom,
                AttributeList.mem_places_iff]
          | succ j =>
              simp [Node.places, Node.part?, Node.succ_cons_mem_placesFrom_iff, ih,
                Option.isSome_bind, Option.any_eq_true]
      | other position children =>
          cases i with
          | zero => simp [Node.places, Node.part?, Node.zero_cons_not_mem_placesFrom]
          | succ j =>
              simp [Node.places, Node.part?, Node.succ_cons_mem_placesFrom_iff, ih,
                Option.isSome_bind, Option.any_eq_true]

end Complete

section Increasing

theorem AttributeList.pairwise_places (list : AttributeList) :
    list.places.Pairwise (· < ·) := by
  rw [AttributeList.places, List.pairwise_cons, List.pairwise_map]
  constructor
  · intro place hplace
    obtain ⟨i, -, rfl⟩ := List.mem_map.1 hplace
    exact List.nil_lt_cons _ _
  · exact List.pairwise_lt_range.imp fun hlt => List.cons_lt_cons_iff.2 (Or.inl hlt)

/-- Places that begin with the same number have the order of what follows it. -/
theorem pairwise_map_cons {places : List (List Nat)} (i : Nat) (h : places.Pairwise (· < ·)) :
    (places.map (List.cons i)).Pairwise (· < ·) := by
  rw [List.pairwise_map]
  exact h.imp fun hlt => List.cons_lt_cons_iff.2 (Or.inr ⟨rfl, hlt⟩)

/-- Places below a number come before those below a later child. -/
theorem lt_of_mem_placesFrom {i j : Nat} (hij : i < j) {places : List (List Nat)}
    {nodes : List Node} :
    ∀ first ∈ places.map (List.cons i), ∀ second ∈ Node.placesFrom j nodes, first < second := by
  intro first hfirst second hsecond
  obtain ⟨rest, -, rfl⟩ := List.mem_map.1 hfirst
  obtain ⟨k, node, rest', -, -, rfl⟩ := Node.mem_placesFrom_iff.1 hsecond
  exact List.cons_lt_cons_iff.2 (Or.inl (by omega))

theorem nil_lt_of_mem_placesFrom {i : Nat} {nodes : List Node} :
    ∀ place ∈ Node.placesFrom i nodes, [] < place := by
  intro place hplace
  obtain ⟨k, node, rest, -, -, rfl⟩ := Node.mem_placesFrom_iff.1 hplace
  exact List.nil_lt_cons _ _

mutual

/-- The places of a tree increase, so no place occurs twice. -/
theorem Node.pairwise_places : ∀ node : Node, node.places.Pairwise (· < ·)
  | .element tag position list children => by
      have hlist := pairwise_map_cons 0 list.pairwise_places
      rw [Node.places, List.pairwise_cons, List.pairwise_append]
      refine ⟨?_, hlist, Node.pairwise_placesFrom 1 children,
        lt_of_mem_placesFrom Nat.zero_lt_one⟩
      intro place hplace
      rcases List.mem_append.1 hplace with hplace | hplace
      · obtain ⟨rest, -, rfl⟩ := List.mem_map.1 hplace
        exact List.nil_lt_cons _ _
      · exact nil_lt_of_mem_placesFrom place hplace
  | .attributeList list => by
      rw [Node.places]
      exact list.pairwise_places
  | .attr item => by
      rw [Node.places]
      exact List.pairwise_singleton _ _
  | .other position children => by
      rw [Node.places, List.pairwise_cons]
      exact ⟨nil_lt_of_mem_placesFrom, Node.pairwise_placesFrom 1 children⟩

theorem Node.pairwise_placesFrom (i : Nat) :
    ∀ nodes : List Node, (Node.placesFrom i nodes).Pairwise (· < ·)
  | [] => by
      rw [Node.placesFrom]
      exact List.Pairwise.nil
  | node :: nodes => by
      rw [Node.placesFrom, List.pairwise_append]
      exact ⟨pairwise_map_cons i node.pairwise_places, Node.pairwise_placesFrom (i + 1) nodes,
        lt_of_mem_placesFrom i.lt_succ_self⟩

end

end Increasing

section Visits

theorem AttributeList.map_part?_places (list : AttributeList) :
    list.places.map list.part? = list.visits.map some := by
  rw [AttributeList.places, AttributeList.visits, List.map_cons, List.map_cons, List.map_map,
    List.map_map]
  congr 1
  apply List.ext_getElem
  · simp
  · intro i _ _
    simp [AttributeList.part?]

mutual

/-- The parts at the places of a tree are what a walk meets. -/
theorem Node.map_part?_places : ∀ node : Node,
    node.places.map node.part? = node.visits.map some
  | .element tag position list children => by
      have hchildren := Node.map_placesFrom (Node.element tag position list children).part? 1
        children fun j place => by
          rw [Nat.add_comm]
          rfl
      have hlist : (Node.element tag position list children).part? ∘ List.cons 0 = list.part? :=
        rfl
      rw [Node.places, Node.visits, List.map_cons, List.map_append, List.map_map, hlist,
        list.map_part?_places, hchildren, List.map_cons, List.map_append]
      rfl
  | .attributeList list => by
      have hpart : (Node.attributeList list).part? = list.part? := by
        funext place
        cases place <;> rfl
      rw [Node.places, Node.visits, hpart, list.map_part?_places]
  | .attr item => by
      rw [Node.places, Node.visits]
      rfl
  | .other position children => by
      have hchildren := Node.map_placesFrom (Node.other position children).part? 1 children
        fun j place => by
          rw [Nat.add_comm]
          rfl
      rw [Node.places, Node.visits, List.map_cons, hchildren, List.map_cons]
      rfl

/-- A function that gives the parts of the children of a node gives them in preorder. -/
theorem Node.map_placesFrom (part? : List Nat → Option Visit) (i : Nat) : ∀ nodes : List Node,
    (∀ j place, part? ((i + j) :: place) = nodes[j]?.bind fun node => node.part? place) →
      (Node.placesFrom i nodes).map part? = (Node.visitsAll nodes).map some
  | [], _ => by
      rw [Node.placesFrom, Node.visitsAll]
      rfl
  | node :: nodes, hpart => by
      have hnode : part? ∘ List.cons i = node.part? := funext fun place => hpart 0 place
      have hnodes := Node.map_placesFrom part? (i + 1) nodes fun j place => by
        rw [Nat.add_right_comm, Nat.add_assoc, hpart (j + 1) place]
        rfl
      rw [Node.placesFrom, Node.visitsAll, List.map_append, List.map_append, List.map_map,
        hnode, Node.map_part?_places node, hnodes]

end

end Visits

section Elements

/-- The recorder does not mind attributes. -/
theorem AttributeList.walk_elementRecorder (list : AttributeList) (met : List Node) :
    list.walk elementRecorder met = met :=
  List.foldl_fixed list.attributes

mutual

theorem Node.walk_elementRecorder : ∀ (node : Node) (met : List Node),
    node.walk elementRecorder met = met ++ node.preorder
  | .element tag position list children, met => by
      rw [Node.walk, Node.preorder, Node.walkAll_elementRecorder children,
        list.walk_elementRecorder, elementRecorder, List.append_assoc, List.singleton_append]
  | .attributeList list, met => by
      rw [Node.walk, Node.preorder, list.walk_elementRecorder, List.append_nil]
  | .attr item, met => by
      rw [Node.walk, Node.preorder, List.append_nil]
      rfl
  | .other position children, met => by
      rw [Node.walk, Node.preorder]
      exact Node.walkAll_elementRecorder children met

theorem Node.walkAll_elementRecorder : ∀ (nodes : List Node) (met : List Node),
    Node.walkAll elementRecorder nodes met = met ++ Node.preorderAll nodes
  | [], met => by
      rw [Node.walkAll, Node.preorderAll, List.append_nil]
  | node :: nodes, met => by
      rw [Node.walkAll, Node.preorderAll, Node.walk_elementRecorder node,
        Node.walkAll_elementRecorder nodes, List.append_assoc]

end

end Elements

/-- A walk folds the functions of its visitor over the visits of the tree.  These are the parts
of the tree at an increasing list of places, which are all places where a part stands; so every
part is met once, and in preorder.  The elements that are met are the elements in preorder. -/
theorem Node.walk_in_preorder (root : Node) :
    (∀ (σ : Type) (visitor : Visitor σ) (state : σ),
        root.walk visitor state = root.visits.foldl visitor.meet state) ∧
      (∃ places : List (List Nat), places.Pairwise (· < ·) ∧
        (∀ place, place ∈ places ↔ (root.part? place).isSome) ∧
        places.map root.part? = root.visits.map some) ∧
      root.walk elementRecorder [] = root.preorder := by
  refine ⟨fun σ visitor state => Node.walk_eq_foldl visitor root state, ?_, ?_⟩
  · exact ⟨root.places, root.pairwise_places, fun _ => Node.mem_places_iff,
      root.map_part?_places⟩
  · rw [Node.walk_elementRecorder, List.nil_append]

end Template
end WrapLint
