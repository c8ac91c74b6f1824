import WrapLint.Proofs.Template.Faults

/-!
# Reading a document in which one node is replaced

A node of a document's tree stands in the tree at a place, and its value stands in the value of
the document at the same place.  Another value can be put there.

**Places.**  A place is the list of the numbers, counted from zero, of the children on the way
from the root.

**Results.**
* `Node.decode?_replaceValue_iff`: the tree is read with the node that the new value gives.
* `Node.not_alone_of_faulty`: a value with a fault is no node.
* `Document.read?_replaceValue`: the document is read iff the new value is a node, and then its
  tree differs at this place only.
-/

namespace WrapLint
namespace Template

open Json (Text member? required?)

section Trees

/-- The nodes right below a node. -/
def Node.children : Node → List Node
  | .element _ _ _ children | .other _ children => children
  | .attributeList _ | .attr _ => []

/-- The node with other children, if it can have any. -/
def Node.withChildren (children : List Node) : Node → Node
  | .element tag position list _ => .element tag position list children
  | .other position _ => .other position children
  | node => node

/-- The node at a place of a tree. -/
def Node.at? (node : Node) : List Nat → Option Node
  | [] => some node
  | i :: place => node.children[i]?.bind fun child => child.at? place

/-- The tree with the node at this place replaced. -/
def Node.replaceAt (node plug : Node) : List Nat → Node
  | [] => plug
  | i :: place => node.withChildren (node.children.modify i fun child => child.replaceAt plug place)

end Trees

section Values

/-- An object with what stands behind this name changed. -/
def changeMember (name : String) (change : Json → Json) : Json → Json
  | .object members =>
    .object (members.map fun member =>
      if member.1 = .whole name then (member.1, change member.2) else member)
  | value => value

/-- An array with the item of this number changed. -/
def changeItem (i : Nat) (change : Json → Json) : Json → Json
  | .array items => .array (items.modify i change)
  | value => value

/-- The value of a tree with the value of the node at this place replaced. -/
def Node.replaceValue (plug : Json) : List Nat → Json → Json
  | [], _ => plug
  | i :: place, tree =>
    changeMember "children" (changeItem i (Node.replaceValue plug place)) tree

/-- The value of a document with the value of the node at this place of its tree replaced. -/
def Document.replaceValue (plug : Json) (place : List Nat) : Json → Json
  | .array [source, root] => .array [source, Node.replaceValue plug place root]
  | document => changeMember "root" (Node.replaceValue plug place) document

variable {name : String} {before after : List (Text × Json)} {value : Json}

theorem changeMember_of_split (change : Json → Json)
    (h : ∀ member ∈ before ++ after, member.1 ≠ .whole name) :
    changeMember name change (.object (before ++ (.whole name, value) :: after))
      = .object (before ++ (.whole name, change value) :: after) := by
  have hsame : ∀ list ⊆ before ++ after, (list.map fun member =>
      if member.1 = .whole name then (member.1, change member.2) else member) = list := by
    intro list hlist
    refine (List.map_congr_left ?_).trans (List.map_id list)
    exact fun member hmember => if_neg (h member (hlist hmember))
  rw [changeMember, List.map_append, List.map_cons, hsame before (List.subset_append_left _ _),
    hsame after (List.subset_append_right _ _), if_pos rfl]

/-- Another member is found whatever stands behind this name. -/
theorem member?_of_ne_of_split {other : String} (hne : other ≠ name) (value new : Json) :
    member? other (before ++ (.whole name, new) :: after)
      = member? other (before ++ (.whole name, value) :: after) := by
  apply member?_congr
  have hname : (Text.whole name == Text.whole other) = false := by
    simpa using hne.symm
  simp only [List.filter_append, List.filter_cons, hname, Bool.false_eq_true, if_false]

end Values

section Items

variable {items : List Json} {nodes : List Node} {item : Json} {node : Node} {i : Nat}

/-- Every node of a list that is read comes from the item of its number. -/
theorem Node.exists_item (h : Node.decodeItems? items = some nodes)
    (hnode : nodes[i]? = some node) :
    ∃ item, items[i]? = some item ∧ Node.decode? item = some node := by
  induction items generalizing nodes i with
  | nil =>
      obtain rfl := Option.some.inj h
      cases hnode
  | cons first items ih =>
      obtain ⟨firstNode, rest, hfirst, hrest, rfl⟩ := Node.decodeItems?_cons_iff.1 h
      cases i with
      | zero =>
          obtain rfl := Option.some.inj hnode
          exact ⟨first, rfl, hfirst⟩
      | succ i => exact ih hrest hnode

/-- With one item changed, the list is read with one node changed, or not at all. -/
theorem Node.decodeItems?_modify_iff (change : Json → Json)
    (h : Node.decodeItems? items = some nodes) (hitem : items[i]? = some item)
    {result : List Node} :
    Node.decodeItems? (items.modify i change) = some result ↔
      ∃ node, Node.decode? (change item) = some node ∧ result = nodes.set i node := by
  induction items generalizing nodes i result with
  | nil => cases hitem
  | cons first items ih =>
      obtain ⟨firstNode, rest, hfirst, hrest, rfl⟩ := Node.decodeItems?_cons_iff.1 h
      cases i with
      | zero =>
          obtain rfl := Option.some.inj hitem
          rw [List.modify_zero_cons, Node.decodeItems?_cons_iff, hrest]
          simp
      | succ i =>
          rw [List.modify_succ_cons, Node.decodeItems?_cons_iff, hfirst]
          simp only [ih hrest hitem, List.set_cons_succ]
          constructor
          · rintro ⟨_, _, hnode, ⟨node, hchanged, rfl⟩, rfl⟩
            exact ⟨node, hchanged, by rw [Option.some.inj hnode]⟩
          · rintro ⟨node, hchanged, rfl⟩
            exact ⟨firstNode, _, rfl, ⟨node, hchanged, rfl⟩, rfl⟩

/-- With one item of a list changed, a property of all items is left to the changed one. -/
theorem forall_mem_modify_iff {p : Json → Prop} {change : Json → Json}
    (h : ∀ item ∈ items, p item) (hitem : items[i]? = some item) :
    (∀ item ∈ items.modify i change, p item) ↔ p (change item) := by
  obtain ⟨hlt, -⟩ := List.getElem?_eq_some_iff.1 hitem
  have hset : items.modify i change = items.set i (change item) := by
    rw [List.modify_eq_set_getElem?, hitem]
    rfl
  rw [hset]
  constructor
  · exact fun hall => hall _ (List.mem_set hlt _)
  · intro hchanged other hother
    rcases List.mem_or_eq_of_mem_set hother with hother | rfl
    · exact h other hother
    · exact hchanged

end Items

section Nodes

variable {members others : List (Text × Json)} {node child result : Node} {value plug : Json}
  {i : Nat} {place : List Nat}

/-- A node that has children has those that its members give. -/
theorem Node.childrenOf?_of_givenBy (h : node.GivenBy members) (hchildren : node.children ≠ []) :
    childrenOf? members = some node.children := by
  cases node with
  | element tag position list children => exact h.2.2.2.2
  | attributeList list => exact absurd rfl hchildren
  | attr item => exact absurd rfl hchildren
  | other position children => exact h.2.2

theorem Node.ne_nil_of_child (hchild : node.children[i]? = some child) : node.children ≠ [] := by
  intro hnil
  rw [hnil] at hchild
  cases hchild

/-- If only the children change, the members give the same node with other children. -/
theorem Node.givenBy_iff_of_children (h : node.GivenBy members) (hchildren : node.children ≠ [])
    (hsame : ∀ name ≠ "children", member? name others = member? name members) :
    result.GivenBy others ↔
      ∃ children, childrenOf? others = some children ∧ result = node.withChildren children := by
  have hkind : kindOf? others = kindOf? members := by
    rw [kindOf?, required?, hsame "kind" (by decide)]
    rfl
  have htag : textOf? "tag" others = textOf? "tag" members := by
    rw [textOf?, required?, hsame "tag" (by decide)]
    rfl
  have hposition : Position.decode? others = Position.decode? members := by
    rw [Position.decode?, required?, hsame "line" (by decide), hsame "column" (by decide)]
    rfl
  have hlist : listOf? others = listOf? members := by
    rw [listOf?, hsame "attributes" (by decide)]
    rfl
  cases node with
  | element tag position list children =>
      obtain ⟨hk, ht, hp, hl, -⟩ := h
      rw [← hkind] at hk
      rw [← htag] at ht
      rw [← hposition] at hp
      rw [← hlist] at hl
      constructor
      · intro hresult
        cases result with
        | element tag' position' list' children' =>
            obtain ⟨-, ht', hp', hl', hc'⟩ := hresult
            obtain rfl := Option.some.inj (ht.symm.trans ht')
            obtain rfl := Option.some.inj (hp.symm.trans hp')
            obtain rfl := Option.some.inj (hl.symm.trans hl')
            exact ⟨children', hc', rfl⟩
        | attributeList list => exact absurd (hk.symm.trans hresult.1) (by decide)
        | attr item => exact absurd (hk.symm.trans hresult.1) (by decide)
        | other position children => exact absurd (hk.symm.trans hresult.1) (by decide)
      · rintro ⟨children', hc', rfl⟩
        exact ⟨hk, ht, hp, hl, hc'⟩
  | attributeList list => exact absurd rfl hchildren
  | attr item => exact absurd rfl hchildren
  | other position children =>
      obtain ⟨hk, hp, -⟩ := h
      rw [← hkind] at hk
      rw [← hposition] at hp
      constructor
      · intro hresult
        cases result with
        | element tag position list children =>
            exact absurd (hk.symm.trans hresult.1) (by decide)
        | attributeList list => exact absurd (hk.symm.trans hresult.1) (by decide)
        | attr item => exact absurd (hk.symm.trans hresult.1) (by decide)
        | other position' children' =>
            obtain ⟨-, hp', hc'⟩ := hresult
            obtain rfl := Option.some.inj (hp.symm.trans hp')
            exact ⟨children', hc', rfl⟩
      · rintro ⟨children', hc', rfl⟩
        exact ⟨hk, hp, hc'⟩

/-- The value of a child stands in the one member `children` of its parent's value. -/
theorem Node.exists_value_of_child (h : Node.decode? value = some node)
    (hchild : node.children[i]? = some child) :
    ∃ before after items item,
      value = .object (before ++ (.whole "children", .array items) :: after) ∧
        (∀ member ∈ before ++ after, member.1 ≠ .whole "children") ∧
        Node.decodeItems? items = some node.children ∧ items[i]? = some item ∧
        Node.decode? item = some child := by
  cases value with
  | object members =>
      have hne := Node.ne_nil_of_child hchild
      have hchildren := Node.childrenOf?_of_givenBy (Node.decode?_object_iff.1 h) hne
      obtain ⟨found, hfound, hitems⟩ := Option.bind_eq_some_iff.1 hchildren
      cases found with
      | none => exact absurd (Option.some.inj hitems).symm hne
      | some value =>
          cases value with
          | array items =>
              obtain ⟨before, after, rfl, honly⟩ := exists_split_of_member? hfound
              obtain ⟨item, hitem, hread⟩ := Node.exists_item hitems hchild
              exact ⟨before, after, items, item, rfl, honly, hitems, hitem, hread⟩
          | _ => cases hitems
  | _ => cases h

theorem Node.replaceAt_of_child (plug : Node) (place : List Nat)
    (hchild : node.children[i]? = some child) :
    node.replaceAt plug (i :: place)
      = node.withChildren (node.children.set i (child.replaceAt plug place)) := by
  rw [Node.replaceAt, List.modify_eq_set_getElem?, hchild]
  rfl

/-- A tree in which the value of one node is replaced is read iff the new value is a node, and
then this node takes the place of the old one. -/
theorem Node.decode?_replaceValue_iff (h : Node.decode? value = some node)
    (hplace : (node.at? place).isSome) :
    Node.decode? (Node.replaceValue plug place value) = some result ↔
      ∃ plugNode, Node.decode? plug = some plugNode ∧
        result = node.replaceAt plugNode place := by
  induction place generalizing value node result with
  | nil =>
      rw [Node.replaceValue]
      exact ⟨fun hplug => ⟨result, hplug, rfl⟩, fun ⟨_, hplug, heq⟩ => heq ▸ hplug⟩
  | cons i place ih =>
      obtain ⟨target, htarget⟩ := Option.isSome_iff_exists.1 hplace
      obtain ⟨child, hchild, hat⟩ := Option.bind_eq_some_iff.1 htarget
      obtain ⟨before, after, items, item, rfl, honly, hitems, hitem, hread⟩ :=
        Node.exists_value_of_child h hchild
      have htargets : (child.at? place).isSome := by
        rw [hat]
        rfl
      rw [Node.replaceValue, changeMember_of_split _ honly, Node.decode?_object_iff,
        Node.givenBy_iff_of_children (Node.decode?_object_iff.1 h)
          (Node.ne_nil_of_child hchild) fun name hname => member?_of_ne_of_split hname _ _]
      have hmodified : childrenOf? (before ++ (.whole "children",
          changeItem i (Node.replaceValue plug place) (.array items)) :: after)
            = Node.decodeItems? (items.modify i (Node.replaceValue plug place)) := by
        rw [childrenOf?, member?_of_split honly]
        rfl
      simp only [hmodified, Node.decodeItems?_modify_iff _ hitems hitem, ih hread htargets,
        Node.replaceAt_of_child _ place hchild]
      constructor
      · rintro ⟨_, ⟨_, ⟨plugNode, hplug, rfl⟩, rfl⟩, rfl⟩
        exact ⟨plugNode, hplug, rfl⟩
      · rintro ⟨plugNode, hplug, rfl⟩
        exact ⟨_, ⟨_, ⟨plugNode, hplug, rfl⟩, rfl⟩, rfl⟩

/-- If everything else is sound, a value in which one node is replaced is as sound as the new
node. -/
theorem Node.sound_replaceValue_iff (plug : Json) (h : Node.decode? value = some node)
    (hplace : (node.at? place).isSome) (hsound : value.Sound) :
    (Node.replaceValue plug place value).Sound ↔ plug.Sound := by
  induction place generalizing value node with
  | nil => rw [Node.replaceValue]
  | cons i place ih =>
      obtain ⟨target, htarget⟩ := Option.isSome_iff_exists.1 hplace
      obtain ⟨child, hchild, hat⟩ := Option.bind_eq_some_iff.1 htarget
      obtain ⟨before, after, items, item, rfl, honly, -, hitem, hread⟩ :=
        Node.exists_value_of_child h hchild
      have htargets : (child.at? place).isSome := by
        rw [hat]
        rfl
      rw [Json.sound_object, List.forall_mem_append, List.forall_mem_cons] at hsound
      obtain ⟨hbefore, ⟨hname, hitems⟩, hafter⟩ := hsound
      rw [Json.sound_array] at hitems
      have hinside := ih hread htargets (hitems item (List.mem_of_getElem? hitem))
      rw [Node.replaceValue, changeMember_of_split _ honly, changeItem, Json.sound_object,
        List.forall_mem_append, List.forall_mem_cons, Json.sound_array,
        forall_mem_modify_iff hitems hitem, hinside]
      exact ⟨fun hall => hall.2.1.2, fun hplug => ⟨hbefore, ⟨hname, hplug⟩, hafter⟩⟩

/-- What is below a node does not change how its kind is given. -/
theorem hasKindWord_replaceValue_iff (plug : Json) (h : Node.decode? value = some node)
    (hplace : (node.at? place).isSome) (hword : hasKindWord value = true) :
    hasKindWord (Node.replaceValue plug place value) = true ↔
      (place = [] → hasKindWord plug = true) := by
  cases place with
  | nil => exact ⟨fun hplug _ => hplug, fun hplug => hplug rfl⟩
  | cons i place =>
      obtain ⟨target, htarget⟩ := Option.isSome_iff_exists.1 hplace
      obtain ⟨child, hchild, -⟩ := Option.bind_eq_some_iff.1 htarget
      obtain ⟨before, after, items, item, rfl, honly, -, -, -⟩ :=
        Node.exists_value_of_child h hchild
      have hsame : hasKindWord (Node.replaceValue plug (i :: place)
          (.object (before ++ (.whole "children", .array items) :: after)))
            = hasKindWord (.object (before ++ (.whole "children", .array items) :: after)) := by
        rw [Node.replaceValue, changeMember_of_split _ honly, hasKindWord, hasKindWord, required?,
          member?_of_ne_of_split (by decide) (.array items)]
        rfl
      rw [hsame]
      constructor
      · intro _ hnil
        cases hnil
      · intro _
        exact hword

end Nodes

section Documents

variable {source root plug : Json} {members : List (Text × Json)} {document result : Document}
  {place : List Nat}

/-- With a value replaced in its tree, a document is read iff the new value is a node. -/
theorem Document.ofParts?_replaceValue_iff (h : Document.ofParts? source root = some document)
    (hplace : (document.root.at? place).isSome)
    (hdepth : (Node.replaceValue plug place root).depth ≤ depthLimit - 1) :
    Document.ofParts? source (Node.replaceValue plug place root) = some result ↔
      ∃ node, Node.Alone (place = []) plug node ∧
        result = ⟨document.lines, document.root.replaceAt node place⟩ := by
  obtain ⟨text, node, htext, hkind, -, hsound, hnode, rfl⟩ := Document.ofParts?_eq_some_iff.1 h
  have hkinds := hasKindWord_replaceValue_iff plug hnode hplace hkind
  have hsounds := Node.sound_replaceValue_iff plug hnode hplace hsound
  rw [Document.ofParts?_eq_some_iff]
  constructor
  · rintro ⟨text', _, htext', hkind', -, hsound', hnode', rfl⟩
    obtain rfl := Option.some.inj (htext.symm.trans htext')
    obtain ⟨plugNode, hplug, rfl⟩ := (Node.decode?_replaceValue_iff hnode hplace).1 hnode'
    exact ⟨plugNode, ⟨hplug, hsounds.1 hsound', hkinds.1 hkind'⟩, rfl⟩
  · rintro ⟨plugNode, ⟨hplug, hsound', hkind'⟩, rfl⟩
    exact ⟨text, _, htext, hkinds.2 hkind', hdepth, hsounds.2 hsound',
      (Node.decode?_replaceValue_iff hnode hplace).2 ⟨plugNode, hplug, rfl⟩, rfl⟩

theorem Document.decode?_replaceValue_iff {value : Json}
    (h : Document.decode? value = some document) (hplace : (document.root.at? place).isSome)
    (hdepth : (Document.replaceValue plug place value).depth ≤ depthLimit) :
    Document.decode? (Document.replaceValue plug place value) = some result ↔
      ∃ node, Node.Alone (place = []) plug node ∧
        result = ⟨document.lines, document.root.replaceAt node place⟩ := by
  match value with
  | .object members =>
      obtain ⟨hwhole, source, root, hsource, hroot, hparts⟩ := Document.decode?_object_iff.1 h
      obtain ⟨before, after, rfl, honly⟩ := exists_split_of_member? hroot
      have hreplaced : Document.replaceValue plug place
          (.object (before ++ (.whole "root", root) :: after))
            = .object (before ++ (.whole "root", Node.replaceValue plug place root) :: after) :=
        changeMember_of_split _ honly
      rw [hreplaced] at hdepth ⊢
      have hfound : member? "root" (before ++ (.whole "root", Node.replaceValue plug place root)
          :: after) = some (some (Node.replaceValue plug place root)) :=
        member?_of_split honly
      have hinside := depth_lt_of_member? hfound
      rw [← Document.ofParts?_replaceValue_iff hparts hplace (by omega),
        Document.decode?_object_iff, hfound, member?_of_ne_of_split (by decide) root, hsource]
      constructor
      · rintro ⟨-, source', root', hsource', hroot', hresult⟩
        obtain rfl := Option.some.inj (Option.some.inj hsource')
        obtain rfl := Option.some.inj (Option.some.inj hroot')
        exact hresult
      · intro hresult
        rw [List.forall_mem_append, List.forall_mem_cons] at hwhole ⊢
        exact ⟨hwhole, source, _, rfl, rfl, hresult⟩
  | .array [source, root] =>
      rw [Document.replaceValue] at hdepth ⊢
      simp only [Json.depth, Json.itemsDepth] at hdepth
      exact Document.ofParts?_replaceValue_iff h hplace (by omega)
  | .array [] | .array [_] | .array (_ :: _ :: _ :: _) | .null | .boolean _ | .number _
  | .string _ => cases h

/-- A document in which the value of any node is replaced is read iff the new value is a node by
itself, and then its lines are the same and its tree is the old one with the new node in that
place.  A new value with a fault makes the document unreadable. -/
theorem Document.read?_replaceValue {text replaced : String} {value : Json}
    (htext : Json.read? text = some value) (hdocument : Document.read? text = some document)
    (hplace : (document.root.at? place).isSome)
    (hreplaced : Json.read? replaced = some (Document.replaceValue plug place value))
    (hdepth : (Document.replaceValue plug place value).depth ≤ 127) :
    (∀ result, Document.read? replaced = some result ↔
        ∃ node, Node.Alone (place = []) plug node ∧
          result = ⟨document.lines, document.root.replaceAt node place⟩) ∧
      ∀ members, plug = .object members → Faulty (place = []) members →
        Document.read? replaced = none := by
  have hdecode : Document.decode? value = some document := by
    rw [Document.read?, htext] at hdocument
    exact hdocument
  have hiff : ∀ result, Document.read? replaced = some result ↔
      ∃ node, Node.Alone (place = []) plug node ∧
        result = ⟨document.lines, document.root.replaceAt node place⟩ := by
    intro result
    rw [Document.read?, hreplaced]
    exact Document.decode?_replaceValue_iff hdecode hplace hdepth
  refine ⟨hiff, ?_⟩
  rintro members rfl hfaulty
  rw [Option.eq_none_iff_forall_ne_some]
  intro result hresult
  obtain ⟨node, halone, -⟩ := (hiff result).1 hresult
  exact Node.not_alone_of_faulty hfaulty node halone

end Documents

section Samples

variable {root child kind : Json} {n : Nat} {node : Node}

/-- A small node: its kind and its line. -/
def leaf (kind : Json) : Json :=
  .ofMembers [("kind", kind), ("line", .ofNat 7)]

/-- A node around another one. -/
def around (child : Json) : Json :=
  .ofMembers [("kind", .ofString "other"), ("line", .ofNat 1), ("children", .array [child])]

/-- A document with this tree. -/
def sourced (root : Json) : Json :=
  .ofMembers [("source", .ofString "p\n"), ("root", root)]

theorem plain_ofNat (h : n < UInt64.size) : (Json.ofNat n).Plain :=
  h

theorem plain_leaf (h : kind.Plain) : (leaf kind).Plain := by
  rw [leaf, plain_ofMembers, List.forall_mem_cons, List.forall_mem_singleton]
  exact ⟨h, plain_ofNat (by decide)⟩

theorem plain_around (h : child.Plain) : (around child).Plain := by
  rw [around, plain_ofMembers]
  simp only [List.forall_mem_cons]
  exact ⟨Json.plain_ofString _, plain_ofNat (by decide),
    Json.plain_array.2 (List.forall_mem_singleton.2 h), nofun⟩

theorem read?_compact_sourced (h : root.Plain) :
    Json.read? (Json.compact (sourced root)) = some (sourced root) := by
  apply Json.read?_compact
  apply Json.Plain.kept
  rw [sourced, plain_ofMembers, List.forall_mem_cons, List.forall_mem_singleton]
  exact ⟨Json.plain_ofString _, h⟩

theorem Document.read?_sourced (h : root.Plain) (hword : hasKindWord root = true)
    (hdepth : root.depth ≤ 126) (hnode : Node.decode? root = some node) :
    Document.read? (Json.compact (sourced root)) = some (.ofSource "p\n" node) := by
  have hparts : Document.ofParts? (.ofString "p\n") root = some (.ofSource "p\n" node) :=
    Document.ofParts?_eq_some_iff.2 ⟨"p\n", node, rfl, hword, hdepth, h.sound, hnode, rfl⟩
  have hwhole : ∀ member ∈ named [("source", .ofString "p\n"), ("root", root)],
      member.1.isWhole := by
    simp [named, Text.isWhole]
  rw [Document.read?, read?_compact_sourced h]
  exact Document.decode?_object_iff.2 ⟨hwhole, .ofString "p\n", root, rfl, rfl, hparts⟩

/-- A small node is read below the root however its kind is given. -/
theorem Document.read?_around (h : kind.Plain) (hdepth : (around (leaf kind)).depth ≤ 126)
    (hkind : decodeWord? nodeKinds kind = some "other") :
    Document.read? (Json.compact (sourced (around (leaf kind))))
      = some ⟨["p"], .other ⟨1, none⟩ [.other ⟨7, none⟩ []]⟩ := by
  have hleaf : Node.decode? (leaf kind) = some (.other ⟨7, none⟩ []) :=
    Node.decode?_object_iff.2 ⟨hkind, rfl, rfl⟩
  have hitems : Node.decodeItems? [leaf kind] = some [.other ⟨7, none⟩ []] :=
    Node.decodeItems?_cons_iff.2 ⟨_, [], hleaf, rfl, rfl⟩
  have hnode : Node.decode? (around (leaf kind))
      = some (.other ⟨1, none⟩ [.other ⟨7, none⟩ []]) :=
    Node.decode?_object_iff.2 ⟨rfl, rfl, hitems⟩
  exact Document.read?_sourced (plain_around (plain_leaf h)) rfl hdepth hnode

/-- With a node put below the root, the document is read and has this node; with a value put there
whose kind is unknown, it is not read. -/
theorem Document.read?_replaceValue_around :
    (∀ result, Document.read? (Json.compact (sourced (around (leaf (.ofNat 3))))) = some result ↔
        ∃ node, Node.Alone ([0] = ([] : List Nat)) (leaf (.ofNat 3)) node ∧
          result = ⟨["p"], .other ⟨1, none⟩ [node]⟩) ∧
      Document.read? (Json.compact (sourced (around (leaf (.ofString "script"))))) = none := by
  have hword := Json.plain_ofString "other"
  have htext := read?_compact_sourced (plain_around (plain_leaf hword))
  have hdocument := Document.read?_around hword (by decide) rfl
  have hknown := read?_compact_sourced (plain_around (plain_leaf
    (plain_ofNat (by decide : 3 < UInt64.size))))
  have hunknown := read?_compact_sourced (plain_around (plain_leaf (Json.plain_ofString "script")))
  constructor
  · exact (Document.read?_replaceValue htext hdocument rfl hknown (by decide)).1
  · have hrefused : ∀ members, leaf (.ofString "script") = .object members →
        Faulty ([0] = ([] : List Nat)) members →
        Document.read? (Json.compact (sourced (around (leaf (.ofString "script"))))) = none :=
      (Document.read?_replaceValue htext hdocument rfl hunknown (by decide)).2
    refine hrefused _ rfl (.unknownKind List.mem_cons_self ?_)
    intro kind h
    cases h with
    | word hkind => exact absurd hkind (by decide)

/-- Whether a value is a node hangs on its place: a kind given by its place among the kinds is
known below the root and unknown at the root. -/
theorem Document.no_placeless_validity :
    ¬ ∃ valid : Json → Prop, ∀ text replaced value plug document place,
      Json.read? text = some value → Document.read? text = some document →
      (document.root.at? place).isSome →
      Json.read? replaced = some (Document.replaceValue plug place value) →
      (Document.replaceValue plug place value).depth ≤ 127 →
      ((Document.read? replaced).isSome ↔ valid plug) := by
  rintro ⟨valid, hvalid⟩
  have hword := Json.plain_ofString "other"
  have htext := read?_compact_sourced (plain_around (plain_leaf hword))
  have hdocument := Document.read?_around hword (by decide) rfl
  have hnumber := plain_ofNat (by decide : 3 < UInt64.size)
  have hplug := plain_leaf hnumber
  have hbelow : (Document.read? (Json.compact (sourced (around (leaf (.ofNat 3)))))).isSome
      ↔ valid (leaf (.ofNat 3)) :=
    hvalid _ _ _ _ _ [0] htext hdocument rfl (read?_compact_sourced (plain_around hplug))
      (by decide)
  have hroot : (Document.read? (Json.compact (sourced (leaf (.ofNat 3))))).isSome
      ↔ valid (leaf (.ofNat 3)) :=
    hvalid _ _ _ _ _ [] htext hdocument rfl (read?_compact_sourced hplug) (by decide)
  have hread := Document.read?_around hnumber (by decide) rfl
  have hrefused : Document.read? (Json.compact (sourced (leaf (.ofNat 3)))) = none := by
    rw [Document.read?, read?_compact_sourced hplug]
    rfl
  rw [hread] at hbelow
  rw [hrefused] at hroot
  exact Bool.false_ne_true (hroot.2 (hbelow.1 rfl))

end Samples

end Template
end WrapLint
