import Mathlib.Data.List.Perm.Basic
import WrapLint.Proofs.Template.Interchange

/-!
# The members of an object, by name

Reading an object looks for members by their names, and a name that is looked for may occur once
at most.

**Results.**
* `member?_eq_some_none_iff`, `exists_split_of_member?`: where a name does not occur, and where
  it occurs once.
* `member?_perm`: the order of the members does not matter.
* `Node.decode?_object_iff`: what the members of an object must say for each kind of node.
* `Document.decode?_object_iff`: what they must say for a document.
-/

namespace WrapLint
namespace Template

open Json (Text member? required?)

section Names

variable {α : Type} {name : String} {members others before after : List (Text × α)} {value : α}

theorem member?_eq_some_none_iff :
    member? name members = some none ↔ ∀ member ∈ members, member.1 ≠ .whole name := by
  have hfilter : members.filter (fun member => member.1 == .whole name) = []
      ↔ ∀ member ∈ members, member.1 ≠ .whole name := by
    rw [List.filter_eq_nil_iff]
    simp only [beq_iff_eq, ne_eq]
  rw [← hfilter, member?]
  generalize members.filter (fun member => member.1 == .whole name) = found
  rcases found with _ | ⟨_, _ | ⟨_, _⟩⟩ <;> simp

theorem filter_of_split (h : ∀ member ∈ before ++ after, member.1 ≠ .whole name) :
    (before ++ (.whole name, value) :: after).filter (fun member => member.1 == .whole name)
      = [(.whole name, value)] := by
  have hnone : ∀ list ⊆ before ++ after,
      list.filter (fun member => member.1 == .whole name) = [] := by
    intro list hlist
    rw [List.filter_eq_nil_iff]
    intro member hmember
    simpa using h member (hlist hmember)
  rw [List.filter_append, List.filter_cons_of_pos (by simp),
    hnone before (List.subset_append_left _ _), hnone after (List.subset_append_right _ _),
    List.nil_append]

/-- A member that is the only one of its name is found. -/
theorem member?_of_split (h : ∀ member ∈ before ++ after, member.1 ≠ .whole name) :
    member? name (before ++ (.whole name, value) :: after) = some (some value) := by
  rw [member?, filter_of_split h]

/-- A member that is found is the only one of its name. -/
theorem exists_split_of_member? (h : member? name members = some (some value)) :
    ∃ before after, members = before ++ (.whole name, value) :: after ∧
      ∀ member ∈ before ++ after, member.1 ≠ .whole name := by
  have hfilter : members.filter (fun member => member.1 == .whole name)
      = [(.whole name, value)] := by
    unfold member? at h
    split at h
    · cases h
    · rename_i member hmembers
      have hmember : member ∈ members.filter fun member => member.1 == .whole name := by
        rw [hmembers]
        exact List.mem_singleton_self member
      have hname := (List.mem_filter.1 hmember).2
      rw [hmembers]
      obtain ⟨other, found⟩ := member
      simp_all
    · cases h
  obtain ⟨before, after, rfl, hbefore, -, hafter⟩ := List.filter_eq_cons_iff.1 hfilter
  refine ⟨before, after, rfl, ?_⟩
  rw [List.filter_eq_nil_iff] at hafter
  rw [List.forall_mem_append]
  constructor
  · intro member hmember
    simpa using hbefore member hmember
  · intro member hmember
    simpa using hafter member hmember

/-- The order of the members does not matter. -/
theorem member?_perm (h : members.Perm others) : member? name members = member? name others := by
  have hfilter := h.filter fun member => member.1 == .whole name
  unfold member?
  generalize members.filter (fun member => member.1 == .whole name) = found at hfilter ⊢
  generalize others.filter (fun member => member.1 == .whole name) = found' at hfilter ⊢
  rcases found with _ | ⟨first, _ | ⟨second, found⟩⟩
  · rw [List.nil_perm.1 hfilter]
  · rw [List.singleton_perm.1 hfilter]
  · have hlength := hfilter.length_eq
    rcases found' with _ | ⟨first', _ | ⟨second', found'⟩⟩
    · cases hlength
    · cases hlength
    · rfl

end Names

section Parts

variable {members : List (Text × Json)}

/-- The text of a member. -/
def textOf? (name : String) (members : List (Text × Json)) : Option String := do
  (← required? name members).text?

/-- The line that members give. -/
def lineOf? (members : List (Text × Json)) : Option Nat := do
  (← required? "line" members).natural?

/-- The column that members give. -/
def columnOf? (members : List (Text × Json)) : Option (Option Nat) := do
  decodeColumn? (← member? "column" members)

/-- The value that the members of an attribute give. -/
def valueOf? (members : List (Text × Json)) : Option AttributeValue := do
  AttributeValue.decode? (← required? "value" members)

/-- The attributes that the members of a list of attributes give. -/
def attributesOf? (members : List (Text × Json)) : Option (List Attribute) := do
  decodeItems? Attribute.decode? (← member? "attributes" members)

theorem Position.decode?_eq_some_iff {position : Position} :
    Position.decode? members = some position ↔
      lineOf? members = some position.line ∧ columnOf? members = some position.column := by
  obtain ⟨line, column⟩ := position
  simp only [Position.decode?, lineOf?, columnOf?, Option.bind_eq_bind, Option.bind_eq_some_iff,
    Option.some.injEq, Position.mk.injEq]
  constructor
  · rintro ⟨value, hvalue, _, hline, found, hfound, _, hcolumn, rfl, rfl⟩
    exact ⟨⟨value, hvalue, hline⟩, found, hfound, hcolumn⟩
  · rintro ⟨⟨value, hvalue, hline⟩, found, hfound, hcolumn⟩
    exact ⟨value, hvalue, line, hline, found, hfound, column, hcolumn, rfl, rfl⟩

theorem Attribute.ofMembers?_eq_some_iff {item : Attribute} :
    Attribute.ofMembers? members = some item ↔
      textOf? "name" members = some item.name ∧ valueOf? members = some item.value ∧
        Position.decode? members = some item.position := by
  obtain ⟨name, value, position⟩ := item
  simp only [Attribute.ofMembers?, textOf?, valueOf?, Option.bind_eq_bind,
    Option.bind_eq_some_iff, Option.some.injEq, Attribute.mk.injEq]
  constructor
  · rintro ⟨text, htext, _, hname, found, hfound, _, hvalue, _, hposition, rfl, rfl, rfl⟩
    exact ⟨⟨text, htext, hname⟩, ⟨found, hfound, hvalue⟩, hposition⟩
  · rintro ⟨⟨text, htext, hname⟩, ⟨found, hfound, hvalue⟩, hposition⟩
    exact ⟨text, htext, name, hname, found, hfound, value, hvalue, position, hposition, rfl, rfl,
      rfl⟩

theorem AttributeList.ofMembers?_eq_some_iff {list : AttributeList} :
    AttributeList.ofMembers? members = some list ↔
      Position.decode? members = some list.position ∧
        attributesOf? members = some list.attributes := by
  obtain ⟨position, attributes⟩ := list
  simp only [AttributeList.ofMembers?, attributesOf?, Option.bind_eq_bind,
    Option.bind_eq_some_iff, Option.some.injEq, AttributeList.mk.injEq]
  constructor
  · rintro ⟨_, hposition, found, hfound, _, hitems, rfl, rfl⟩
    exact ⟨hposition, found, hfound, hitems⟩
  · rintro ⟨hposition, found, hfound, hitems⟩
    exact ⟨position, hposition, found, hfound, attributes, hitems, rfl, rfl⟩

end Parts

section Kinds

/-- The kind that the members of a node name. -/
def kindOf? (members : List (Text × Json)) : Option String := do
  decodeWord? nodeKinds (← required? "kind" members)

/-- The list of attributes that the members of an element give. -/
def listOf? (members : List (Text × Json)) : Option AttributeList := do
  AttributeList.decodeOptional? (← member? "attributes" members)

/-- The children that the members of a node give. -/
def childrenOf? (members : List (Text × Json)) : Option (List Node) := do
  ((← member? "children" members).map Node.decodeList?).getD (some [])

/-- What the members of an object say if they are read as this node. -/
def Node.GivenBy (members : List (Text × Json)) : Node → Prop
  | .element tag position attributes children =>
    kindOf? members = some "element" ∧ textOf? "tag" members = some tag ∧
      Position.decode? members = some position ∧ listOf? members = some attributes ∧
      childrenOf? members = some children
  | .attributeList list =>
    kindOf? members = some "attribute_list" ∧ AttributeList.ofMembers? members = some list
  | .attr item => kindOf? members = some "attribute" ∧ Attribute.ofMembers? members = some item
  | .other position children =>
    kindOf? members = some "other" ∧ Position.decode? members = some position ∧
      childrenOf? members = some children

/-- An object is read as a node iff its members give that node. -/
theorem Node.decode?_object_iff {members : List (Text × Json)} {node : Node} :
    Node.decode? (.object members) = some node ↔ node.GivenBy members := by
  rw [Node.decode?, Node.ofMembers?, member?_decodeMembers]
  constructor
  · intro h
    simp only [Option.bind_eq_bind, Option.bind_eq_some_iff] at h
    obtain ⟨value, hvalue, kind, hkind, h⟩ := h
    have hkindOf : kindOf? members = some kind := by
      rw [kindOf?, hvalue]
      exact hkind
    split at h
    · simp only [Option.bind_eq_some_iff, Option.map_eq_some_iff, Option.some.injEq] at h
      obtain ⟨tagValue, htagValue, tag, htag, position, hposition, listValue, hlistValue, list,
        hlist, _, ⟨found, hfound, rfl⟩, children, hchildren, rfl⟩ := h
      refine ⟨hkindOf, ?_, hposition, ?_, ?_⟩
      · rw [textOf?, htagValue]
        exact htag
      · rw [listOf?, hlistValue]
        exact hlist
      · rw [childrenOf?, hfound]
        exact hchildren
    · obtain ⟨list, hlist, rfl⟩ := Option.map_eq_some_iff.1 h
      exact ⟨hkindOf, hlist⟩
    · obtain ⟨item, hitem, rfl⟩ := Option.map_eq_some_iff.1 h
      exact ⟨hkindOf, hitem⟩
    · simp only [Option.bind_eq_some_iff, Option.map_eq_some_iff, Option.some.injEq] at h
      obtain ⟨position, hposition, _, ⟨found, hfound, rfl⟩, children, hchildren, rfl⟩ := h
      refine ⟨hkindOf, hposition, ?_⟩
      rw [childrenOf?, hfound]
      exact hchildren
    · cases h
  · intro h
    simp only [Option.bind_eq_bind]
    cases node with
    | element tag position list children =>
        obtain ⟨hkind, htag, hposition, hlist, hchildren⟩ := h
        obtain ⟨kindValue, hkindValue, hword⟩ := Option.bind_eq_some_iff.1 hkind
        obtain ⟨tagValue, htagValue, htext⟩ := Option.bind_eq_some_iff.1 htag
        obtain ⟨listValue, hlistValue, hread⟩ := Option.bind_eq_some_iff.1 hlist
        obtain ⟨found, hfound, hitems⟩ := Option.bind_eq_some_iff.1 hchildren
        simp [hkindValue, hword, htagValue, htext, hposition, hlistValue, hread, hfound, hitems]
    | attributeList list =>
        obtain ⟨hkind, hlist⟩ := h
        obtain ⟨kindValue, hkindValue, hword⟩ := Option.bind_eq_some_iff.1 hkind
        simp [hkindValue, hword, hlist]
    | attr item =>
        obtain ⟨hkind, hitem⟩ := h
        obtain ⟨kindValue, hkindValue, hword⟩ := Option.bind_eq_some_iff.1 hkind
        simp [hkindValue, hword, hitem]
    | other position children =>
        obtain ⟨hkind, hposition, hchildren⟩ := h
        obtain ⟨kindValue, hkindValue, hword⟩ := Option.bind_eq_some_iff.1 hkind
        obtain ⟨found, hfound, hitems⟩ := Option.bind_eq_some_iff.1 hchildren
        simp [hkindValue, hword, hposition, hfound, hitems]

end Kinds

section Documents

variable {items : List Json} {nodes : List Node} {item source root : Json}
  {members : List (Text × Json)} {document : Document}

/-- A member nests less deep than its object. -/
theorem depth_lt_of_member? {name : String} {value : Json}
    (h : member? name members = some (some value)) : value.depth < (Json.object members).depth := by
  obtain ⟨before, after, rfl, -⟩ := exists_split_of_member? h
  have hmem : (Text.whole name, value) ∈ before ++ (.whole name, value) :: after :=
    List.mem_append_right _ List.mem_cons_self
  rw [Json.depth]
  exact Nat.lt_succ_of_le (Json.depth_le_membersDepth hmem)

theorem Node.decodeItems?_cons_iff :
    Node.decodeItems? (item :: items) = some nodes ↔
      ∃ node rest, Node.decode? item = some node ∧ Node.decodeItems? items = some rest ∧
        nodes = node :: rest := by
  rw [Node.decodeItems?]
  simp only [Option.bind_eq_bind, Option.bind_eq_some_iff, Option.some.injEq]
  constructor
  · rintro ⟨node, hnode, rest, hrest, rfl⟩
    exact ⟨node, rest, hnode, hrest, rfl⟩
  · rintro ⟨node, rest, hnode, hrest, rfl⟩
    exact ⟨node, hnode, rest, hrest, rfl⟩

theorem Document.ofParts?_eq_some_iff :
    Document.ofParts? source root = some document ↔
      ∃ text node, source.text? = some text ∧ hasKindWord root = true ∧
        root.depth ≤ depthLimit - 1 ∧ root.Sound ∧ Node.decode? root = some node ∧
        document = .ofSource text node := by
  simp only [Document.ofParts?, Option.bind_eq_bind, Option.bind_eq_some_iff]
  constructor
  · rintro ⟨text, htext, h⟩
    split at h
    · rename_i hroot
      rw [Bool.and_eq_true, Json.soundWithin_iff] at hroot
      obtain ⟨hkind, hdepth, hsound⟩ := hroot
      obtain ⟨node, hnode, heq⟩ := Option.bind_eq_some_iff.1 h
      exact ⟨text, node, htext, hkind, hdepth, hsound, hnode, (Option.some.inj heq).symm⟩
    · cases h
  · rintro ⟨text, node, htext, hkind, hdepth, hsound, hnode, rfl⟩
    have hwithin := (Json.soundWithin_iff _ root).2 ⟨hdepth, hsound⟩
    refine ⟨text, htext, ?_⟩
    rw [hkind, hwithin, hnode]
    rfl

theorem Document.decode?_object_iff :
    Document.decode? (.object members) = some document ↔
      (∀ member ∈ members, member.1.isWhole) ∧ ∃ source root,
        member? "source" members = some (some source) ∧
        member? "root" members = some (some root) ∧
        Document.ofParts? source root = some document := by
  simp only [Document.decode?, required?, List.all_eq_true, Option.bind_eq_bind]
  split
  · rename_i hwhole
    simp only [Option.bind_eq_some_iff, Option.join_eq_some_iff]
    constructor
    · rintro ⟨source, hsource, root, hroot, h⟩
      exact ⟨hwhole, source, root, hsource, hroot, h⟩
    · rintro ⟨-, source, root, hsource, hroot, h⟩
      exact ⟨source, hsource, root, hroot, h⟩
  · rename_i hwhole
    constructor
    · intro h
      cases h
    · intro h
      exact absurd h.1 hwhole

end Documents

end Template
end WrapLint
