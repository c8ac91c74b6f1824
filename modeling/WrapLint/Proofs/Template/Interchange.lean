import WrapLint.Proofs.Json.RoundTrip
import WrapLint.Template.Interchange

/-!
# The interchange form is read back

`Document.encode` writes a source and a tree as a JSON value, `Document.decode?` reads such
values, and between the two stands the text that the printer writes and the reader reads.

**Members.**  A position has no object of its own: its members stand between those of the
node.  `Position.decode?_around` and `member?_around` say that the two do not disturb each
other.

**Conditions.**  A tree is read back if every line and column fits 64 bits (`Node.Fits`) and
the JSON value nests at most `depthLimit` deep.

**Results.**
* `Node.decode?_encode`: a tree whose positions fit is read back from its JSON value.
* `Document.interchange_round_trip`: a source and a tree are read back from the text.
-/

namespace WrapLint
namespace Template

open Json (Text member? required?)

section Fits

/-- The line and the column fit 64 bits. -/
def Position.Fits (position : Position) : Prop :=
  position.line < UInt64.size ∧ ∀ column ∈ position.column, column < UInt64.size

/-- The positions of the list and of its attributes fit. -/
def AttributeList.Fits (list : AttributeList) : Prop :=
  list.position.Fits ∧ ∀ item ∈ list.attributes, item.position.Fits

mutual

/-- Every line and column in the tree fits 64 bits. -/
def Node.Fits : Node → Prop
  | .element _ position attributes children =>
    position.Fits ∧ attributes.Fits ∧ Node.AllFit children
  | .attributeList list => list.Fits
  | .attr item => item.position.Fits
  | .other position children => position.Fits ∧ Node.AllFit children

/-- `Node.Fits` for several nodes. -/
def Node.AllFit : List Node → Prop
  | [] => True
  | node :: nodes => Node.Fits node ∧ Node.AllFit nodes

end

end Fits

section Members

variable {α β : Type}

/-- Members whose names are whole. -/
def named (members : List (String × α)) : List (Text × α) :=
  members.map fun (name, value) => (.whole name, value)

theorem ofMembers_eq_object (members : List (String × Json)) :
    Json.ofMembers members = .object (named members) :=
  rfl

theorem named_append (members others : List (String × α)) :
    named (members ++ others) = named members ++ named others :=
  List.map_append

/-- The members with this name, which decide what `member?` gives. -/
theorem member?_congr {name : String} {members others : List (Text × α)}
    (h : members.filter (fun member => member.1 == .whole name)
      = others.filter (fun member => member.1 == .whole name)) :
    member? name members = member? name others := by
  unfold member?
  rw [h]

theorem filter_named_eq_nil {name : String} {members : List (String × α)}
    (h : ∀ member ∈ members, member.1 ≠ name) :
    (named members).filter (fun member => member.1 == .whole name) = [] := by
  rw [List.filter_eq_nil_iff]
  intro member hmember
  obtain ⟨⟨other, value⟩, hother, rfl⟩ := List.mem_map.mp hmember
  have hne := h _ hother
  simpa using hne

/-- A member is found among those that may have its name. -/
theorem member?_between {name : String} {before middle after : List (String × α)}
    (hbefore : ∀ member ∈ before, member.1 ≠ name)
    (hafter : ∀ member ∈ after, member.1 ≠ name) :
    member? name (named (before ++ middle ++ after)) = member? name (named middle) := by
  apply member?_congr
  simp only [named_append, List.filter_append, filter_named_eq_nil hbefore,
    filter_named_eq_nil hafter, List.append_nil, List.nil_append]

theorem member?_map (f : α → β) (name : String) (members : List (Text × α)) :
    member? name (members.map fun (other, value) => (other, f value))
      = (member? name members).map (Option.map f) := by
  have hfilter : (members.map fun (other, value) => (other, f value)).filter
        (fun member => member.1 == .whole name)
      = (members.filter fun member => member.1 == .whole name).map
        fun (other, value) => (other, f value) :=
    List.filter_map
  unfold member?
  rw [hfilter]
  generalize members.filter (fun member => member.1 == .whole name) = found
  rcases found with _ | ⟨_, _ | ⟨_, _⟩⟩ <;> rfl

theorem Node.decodeMembers_eq_map (members : List (Text × Json)) :
    Node.decodeMembers members
      = members.map fun (name, value) => (name, Node.decodeList? value) := by
  induction members with
  | nil => rw [Node.decodeMembers, List.map_nil]
  | cons member members ih => rw [Node.decodeMembers, List.map_cons, ih]

end Members

section Positions

variable {position : Position} {before after : List (String × Json)}

theorem natural?_ofNat {n : Nat} (h : n < UInt64.size) : (Json.ofNat n).natural? = some n := by
  simp [Json.ofNat, Json.natural?, h]

theorem decodeColumn?_ofNat {n : Nat} (h : n < UInt64.size) :
    decodeColumn? (some (.ofNat n)) = some (some n) := by
  have hnatural := natural?_ofNat h
  rw [decodeColumn?, hnatural]
  · rfl
  · rintro ⟨⟩

theorem fst_of_mem_encode {member : String × Json} (h : member ∈ position.encode) :
    member.1 = "line" ∨ member.1 = "column" := by
  unfold Position.encode at h
  rcases List.mem_cons.mp h with rfl | h
  · exact Or.inl rfl
  · cases hcolumn : position.column with
    | none =>
        rw [hcolumn] at h
        cases h
    | some column =>
        rw [hcolumn] at h
        obtain rfl := List.mem_singleton.mp h
        exact Or.inr rfl

/-- A position between other members does not change what they are. -/
theorem member?_around {name : String} (hname : name ≠ "line" ∧ name ≠ "column") :
    member? name (named (before ++ position.encode ++ after))
      = member? name (named (before ++ after)) := by
  have hencode : ∀ member ∈ position.encode, member.1 ≠ name := by
    intro member hmember
    rcases fst_of_mem_encode hmember with h | h
    · rw [h]
      exact hname.1.symm
    · rw [h]
      exact hname.2.symm
  apply member?_congr
  simp only [named_append, List.filter_append, filter_named_eq_nil hencode, List.append_nil]

theorem required?_around {name : String} (hname : name ≠ "line" ∧ name ≠ "column") :
    required? name (named (before ++ position.encode ++ after))
      = required? name (named (before ++ after)) := by
  rw [required?, member?_around hname, required?]

/-- A position is read from between members that have other names. -/
theorem Position.decode?_around (hfits : position.Fits)
    (hbefore : ∀ member ∈ before, member.1 ≠ "line" ∧ member.1 ≠ "column")
    (hafter : ∀ member ∈ after, member.1 ≠ "line" ∧ member.1 ≠ "column") :
    Position.decode? (named (before ++ position.encode ++ after)) = some position := by
  have hlines : member? "line" (named (before ++ position.encode ++ after))
      = member? "line" (named position.encode) :=
    member?_between (fun member h => (hbefore member h).1) fun member h => (hafter member h).1
  have hcolumns : member? "column" (named (before ++ position.encode ++ after))
      = member? "column" (named position.encode) :=
    member?_between (fun member h => (hbefore member h).2) fun member h => (hafter member h).2
  have hline := natural?_ofNat hfits.1
  rw [Position.decode?, required?, hlines, hcolumns]
  obtain ⟨line, column⟩ := position
  cases column with
  | none => simp [Position.encode, named, member?, hline, decodeColumn?]
  | some column =>
      have hcolumn := decodeColumn?_ofNat (hfits.2 column rfl)
      simp [Position.encode, named, member?, hline, hcolumn]

end Positions

section Kind

variable {members : List (Text × Json)}

theorem member?_cons_of_ne {α : Type} {name other : String} (value : α)
    {members : List (Text × α)} (h : other ≠ name) :
    member? name ((.whole other, value) :: members) = member? name members := by
  apply member?_congr
  rw [List.filter_cons_of_neg]
  simpa using h

/-- The kind of a node is not a member of what the node carries. -/
theorem Position.decode?_cons_kind (kind : Json) :
    Position.decode? ((.whole "kind", kind) :: members) = Position.decode? members := by
  simp only [Position.decode?, required?]
  rw [member?_cons_of_ne kind (by decide), member?_cons_of_ne kind (by decide)]

theorem Attribute.ofMembers?_cons_kind (kind : Json) :
    Attribute.ofMembers? ((.whole "kind", kind) :: members) = Attribute.ofMembers? members := by
  simp only [Attribute.ofMembers?, required?]
  rw [member?_cons_of_ne kind (by decide), member?_cons_of_ne kind (by decide),
    Position.decode?_cons_kind]

theorem AttributeList.ofMembers?_cons_kind (kind : Json) :
    AttributeList.ofMembers? ((.whole "kind", kind) :: members)
      = AttributeList.ofMembers? members := by
  simp only [AttributeList.ofMembers?]
  rw [member?_cons_of_ne kind (by decide), Position.decode?_cons_kind]

/-- The kind of a node is found in front of its other members. -/
theorem required?_kind (kind : Json) {before after : List (String × Json)} {position : Position}
    (hbefore : ∀ member ∈ before, member.1 ≠ "kind")
    (hafter : ∀ member ∈ after, member.1 ≠ "kind") :
    required? "kind" (named (("kind", kind) :: before ++ position.encode ++ after))
      = some kind := by
  have hrest : ∀ member ∈ before ++ after, member.1 ≠ "kind" := by
    intro member hmember
    rcases List.mem_append.mp hmember with h | h
    · exact hbefore member h
    · exact hafter member h
  have hmember : member? "kind" (named ([] ++ [("kind", kind)] ++ (before ++ after)))
      = member? "kind" (named [("kind", kind)]) :=
    member?_between (by simp) hrest
  rw [required?_around (by decide), required?]
  refine (congrArg Option.join hmember).trans ?_
  simp [named, member?]

end Kind

section Parts

theorem AttributeValue.decode?_encode (value : AttributeValue) :
    AttributeValue.decode? value.encode = some value := by
  cases value <;>
    simp [AttributeValue.encode, AttributeValue.decode?, Json.ofMembers, required?, member?,
      decodeTag?, Json.ofString, Json.text?, AttributeValue.ofParts?]

theorem Attribute.members_eq (item : Attribute) :
    item.members = [("name", .ofString item.name), ("value", item.value.encode)]
      ++ item.position.encode ++ [] :=
  (List.append_nil _).symm

theorem AttributeList.members_eq (list : AttributeList) :
    list.members = [] ++ list.position.encode
      ++ [("attributes", .array (list.attributes.map fun item => .ofMembers item.members))] :=
  rfl

theorem Attribute.ofMembers?_members {item : Attribute} (hfits : item.position.Fits) :
    Attribute.ofMembers? (named item.members) = some item := by
  have hposition : Position.decode? (named item.members) = some item.position := by
    rw [Attribute.members_eq]
    exact Position.decode?_around hfits (by simp) (by simp)
  rw [Attribute.ofMembers?, hposition, Attribute.members_eq, required?_around (by decide),
    required?_around (by decide)]
  simp [named, required?, member?, Json.ofString, Json.text?, AttributeValue.decode?_encode]

theorem mapM_decode?_attributes {items : List Attribute}
    (hfits : ∀ item ∈ items, item.position.Fits) :
    (items.map fun item => Json.ofMembers item.members).mapM Attribute.decode? = some items := by
  induction items with
  | nil => rfl
  | cons item items ih =>
      have hitem : Attribute.decode? (Json.ofMembers item.members) = some item :=
        Attribute.ofMembers?_members (hfits item List.mem_cons_self)
      have hitems := ih fun item hmem => hfits item (List.mem_cons_of_mem _ hmem)
      rw [List.map_cons, List.mapM_cons, hitem, hitems]
      rfl

theorem AttributeList.ofMembers?_members {list : AttributeList} (hfits : list.Fits) :
    AttributeList.ofMembers? (named list.members) = some list := by
  have hposition : Position.decode? (named list.members) = some list.position := by
    rw [AttributeList.members_eq]
    exact Position.decode?_around hfits.1 (by simp) (by simp)
  have hitems := mapM_decode?_attributes hfits.2
  rw [AttributeList.ofMembers?, hposition, AttributeList.members_eq, member?_around (by decide)]
  simp [named, member?, decodeItems?, hitems]

end Parts

section Nodes

/-- The values of members, each read as a list of nodes. -/
theorem member?_decodeMembers (name : String) (members : List (Text × Json)) :
    member? name (Node.decodeMembers members)
      = (member? name members).map (Option.map Node.decodeList?) := by
  rw [Node.decodeMembers_eq_map, member?_map]

variable {position : Position} {items : List Json} {children : List Node}

theorem decodeWord?_ofString (words : List String) (word : String) :
    decodeWord? words (.ofString word) = some word :=
  rfl

theorem Node.decode?_element (tag : String) {attributes : AttributeList}
    (hposition : position.Fits) (hattributes : attributes.Fits)
    (hchildren : Node.decodeItems? items = some children) :
    Node.decode? (.ofMembers ([("kind", .ofString "element"), ("tag", .ofString tag)]
        ++ position.encode
        ++ [("attributes", .ofMembers attributes.members), ("children", .array items)]))
      = some (.element tag position attributes children) := by
  have hlist : AttributeList.decode? (.ofMembers attributes.members) = some attributes :=
    AttributeList.ofMembers?_members hattributes
  rw [ofMembers_eq_object, Node.decode?, Node.ofMembers?, member?_decodeMembers,
    Position.decode?_around hposition (by simp) (by simp),
    required?_around (by decide), required?_around (by decide),
    member?_around (by decide), member?_around (by decide)]
  simp [named, required?, member?, Json.ofString, decodeWord?, Json.text?,
    AttributeList.decodeOptional?, hlist, Node.decodeList?, hchildren]

theorem Node.decode?_other (hposition : position.Fits)
    (hchildren : Node.decodeItems? items = some children) :
    Node.decode? (.ofMembers ([("kind", .ofString "other")] ++ position.encode
        ++ [("children", .array items)]))
      = some (.other position children) := by
  rw [ofMembers_eq_object, Node.decode?, Node.ofMembers?, member?_decodeMembers,
    Position.decode?_around hposition (by simp) (by simp),
    required?_around (by decide), required?_around (by decide),
    member?_around (by decide), member?_around (by decide)]
  simp [named, required?, member?, Json.ofString, decodeWord?, Json.text?,
    Node.decodeList?, hchildren]

theorem required?_kind_list (kind : Json) (list : AttributeList) :
    required? "kind" (named (("kind", kind) :: list.members)) = some kind := by
  rw [AttributeList.members_eq, ← List.cons_append, ← List.cons_append]
  exact required?_kind kind (by simp) (by simp)

theorem required?_kind_item (kind : Json) (item : Attribute) :
    required? "kind" (named (("kind", kind) :: item.members)) = some kind := by
  rw [Attribute.members_eq, ← List.cons_append, ← List.cons_append]
  exact required?_kind kind (by simp) (by simp)

theorem Node.decode?_attributeList {list : AttributeList} (hfits : list.Fits) :
    Node.decode? (.ofMembers (("kind", .ofString "attribute_list") :: list.members))
      = some (.attributeList list) := by
  have hlist : AttributeList.ofMembers?
      (named (("kind", .ofString "attribute_list") :: list.members)) = some list :=
    (AttributeList.ofMembers?_cons_kind _).trans (AttributeList.ofMembers?_members hfits)
  rw [ofMembers_eq_object, Node.decode?, Node.ofMembers?, required?_kind_list]
  simp only [Option.bind_eq_bind, Option.bind_some, decodeWord?_ofString, hlist,
    Option.map_some]

theorem Node.decode?_attr {item : Attribute} (hfits : item.position.Fits) :
    Node.decode? (.ofMembers (("kind", .ofString "attribute") :: item.members))
      = some (.attr item) := by
  have hitem : Attribute.ofMembers?
      (named (("kind", .ofString "attribute") :: item.members)) = some item :=
    (Attribute.ofMembers?_cons_kind _).trans (Attribute.ofMembers?_members hfits)
  rw [ofMembers_eq_object, Node.decode?, Node.ofMembers?, required?_kind_item]
  simp only [Option.bind_eq_bind, Option.bind_some, decodeWord?_ofString, hitem,
    Option.map_some]

mutual

/-- A tree is read back from its JSON value. -/
theorem Node.decode?_encode (node : Node) (hfits : node.Fits) :
    Node.decode? node.encode = some node := by
  match node with
  | .element tag position attributes children =>
      obtain ⟨hposition, hattributes, hchildren⟩ := hfits
      rw [Node.encode]
      exact Node.decode?_element tag hposition hattributes
        (Node.decodeItems?_encodeAll children hchildren)
  | .attributeList list =>
      rw [Node.encode]
      exact Node.decode?_attributeList hfits
  | .attr item =>
      rw [Node.encode]
      exact Node.decode?_attr hfits
  | .other position children =>
      obtain ⟨hposition, hchildren⟩ := hfits
      rw [Node.encode]
      exact Node.decode?_other hposition (Node.decodeItems?_encodeAll children hchildren)

theorem Node.decodeItems?_encodeAll (nodes : List Node) (hfits : Node.AllFit nodes) :
    Node.decodeItems? (Node.encodeAll nodes) = some nodes := by
  match nodes with
  | [] => rfl
  | node :: nodes =>
      have hnode := Node.decode?_encode node hfits.1
      have hnodes := Node.decodeItems?_encodeAll nodes hfits.2
      rw [Node.encodeAll, Node.decodeItems?, hnode, hnodes]
      rfl

end

end Nodes

section Plain

theorem plain_ofMembers {members : List (String × Json)} :
    (Json.ofMembers members).Plain ↔ ∀ member ∈ members, member.2.Plain := by
  rw [ofMembers_eq_object, Json.plain_object]
  constructor
  · intro h member hmember
    exact (h (.whole member.1, member.2) (List.mem_map.mpr ⟨member, hmember, rfl⟩)).2
  · intro h member hmember
    obtain ⟨⟨name, value⟩, hother, rfl⟩ := List.mem_map.mp hmember
    exact ⟨rfl, h _ hother⟩

theorem Position.plain_encode {position : Position} (hfits : position.Fits) :
    ∀ member ∈ position.encode, member.2.Plain := by
  obtain ⟨line, column⟩ := position
  intro member hmember
  rcases List.mem_cons.mp hmember with rfl | hmember
  · exact hfits.1
  · cases column with
    | none => cases hmember
    | some column =>
        obtain rfl := List.mem_singleton.mp hmember
        exact hfits.2 column rfl

theorem AttributeValue.plain_encode (value : AttributeValue) : value.encode.Plain := by
  cases value <;> simp [AttributeValue.encode, plain_ofMembers, Json.plain_ofString]

theorem Attribute.plain_members {item : Attribute} (hfits : item.position.Fits) :
    ∀ member ∈ item.members, member.2.Plain := by
  have hposition := Position.plain_encode hfits
  rw [Attribute.members, List.forall_mem_append]
  refine ⟨?_, hposition⟩
  simp [Json.plain_ofString, AttributeValue.plain_encode]

theorem AttributeList.plain_members {list : AttributeList} (hfits : list.Fits) :
    ∀ member ∈ list.members, member.2.Plain := by
  have hposition := Position.plain_encode hfits.1
  rw [AttributeList.members, List.forall_mem_append]
  refine ⟨hposition, ?_⟩
  rw [List.forall_mem_singleton, Json.plain_array]
  intro value hvalue
  obtain ⟨item, hitem, rfl⟩ := List.mem_map.mp hvalue
  exact plain_ofMembers.mpr (Attribute.plain_members (hfits.2 item hitem))

mutual

theorem Node.plain_encode (node : Node) (hfits : node.Fits) : node.encode.Plain := by
  match node with
  | .element tag position attributes children =>
      obtain ⟨hposition, hattributes, hchildren⟩ := hfits
      have hlist := plain_ofMembers.mpr (AttributeList.plain_members hattributes)
      have hnodes := Json.plain_array.mpr (Node.plain_encodeAll children hchildren)
      rw [Node.encode, plain_ofMembers, List.forall_mem_append, List.forall_mem_append]
      refine ⟨⟨?_, Position.plain_encode hposition⟩, ?_⟩
      · simp [Json.plain_ofString]
      · exact List.forall_mem_cons.mpr ⟨hlist, List.forall_mem_singleton.mpr hnodes⟩
  | .attributeList list =>
      rw [Node.encode, plain_ofMembers, List.forall_mem_cons]
      exact ⟨Json.plain_ofString _, AttributeList.plain_members hfits⟩
  | .attr item =>
      rw [Node.encode, plain_ofMembers, List.forall_mem_cons]
      exact ⟨Json.plain_ofString _, Attribute.plain_members hfits⟩
  | .other position children =>
      obtain ⟨hposition, hchildren⟩ := hfits
      have hnodes := Json.plain_array.mpr (Node.plain_encodeAll children hchildren)
      rw [Node.encode, plain_ofMembers, List.forall_mem_append, List.forall_mem_cons]
      refine ⟨⟨Json.plain_ofString _, Position.plain_encode hposition⟩, ?_⟩
      exact List.forall_mem_singleton.mpr hnodes

theorem Node.plain_encodeAll (nodes : List Node) (hfits : Node.AllFit nodes) :
    ∀ value ∈ Node.encodeAll nodes, value.Plain := by
  match nodes with
  | [] =>
      intro value hvalue
      cases hvalue
  | node :: nodes =>
      rw [Node.encodeAll, List.forall_mem_cons]
      exact ⟨Node.plain_encode node hfits.1, Node.plain_encodeAll nodes hfits.2⟩

end

theorem Document.plain_encode (source : String) {root : Node} (hfits : root.Fits) :
    (Document.encode source root).Plain := by
  rw [Document.encode, plain_ofMembers, List.forall_mem_cons, List.forall_mem_singleton]
  exact ⟨Json.plain_ofString source, Node.plain_encode root hfits⟩

end Plain

section Documents

variable {source : String} {root : Node}

theorem hasKindWord_ofMembers {members : List (String × Json)} {kind : String}
    (hkind : required? "kind" (named members) = some (.ofString kind)) :
    hasKindWord (.ofMembers members) = true := by
  rw [ofMembers_eq_object, hasKindWord, hkind]
  rfl

/-- The kind of a root is always written as a word. -/
theorem hasKindWord_encode (root : Node) : hasKindWord root.encode = true := by
  cases root with
  | element tag position attributes children =>
      rw [Node.encode]
      exact hasKindWord_ofMembers (required?_kind _ (by simp) (by simp))
  | attributeList list =>
      rw [Node.encode]
      exact hasKindWord_ofMembers (required?_kind_list _ list)
  | attr item =>
      rw [Node.encode]
      exact hasKindWord_ofMembers (required?_kind_item _ item)
  | other position children =>
      have hkind : required? "kind" (named ([("kind", .ofString "other")] ++ position.encode
          ++ [("children", .array (Node.encodeAll children))])) = some (.ofString "other") :=
        required?_kind _ (by simp) (by simp)
      rw [Node.encode]
      exact hasKindWord_ofMembers hkind

theorem depth_encode (source : String) (root : Node) :
    (Document.encode source root).depth = root.encode.depth + 1 := by
  simp [Document.encode, Json.ofMembers, Json.depth, Json.membersDepth, Json.ofString]

theorem Document.decode?_encode (hfits : root.Fits)
    (hdepth : (Document.encode source root).depth ≤ depthLimit) :
    Document.decode? (Document.encode source root) = some (Document.ofSource source root) := by
  have hsound : root.encode.soundWithin (depthLimit - 1) = true := by
    rw [Json.soundWithin_iff]
    rw [depth_encode] at hdepth
    exact ⟨by omega, (Node.plain_encode root hfits).sound⟩
  have hroot := Node.decode?_encode root hfits
  have hkind := hasKindWord_encode root
  rw [Document.encode, ofMembers_eq_object, Document.decode?]
  simp [named, required?, member?, Json.ofString, Document.ofParts?, Json.text?, Text.isWhole,
    hsound, hroot, hkind]

/-- A source and a tree are read back from every text that writes their JSON value, if the
positions fit 64 bits and the value nests at most 127 deep. -/
theorem Document.interchange_round_trip (hfits : root.Fits)
    (hdepth : (Document.encode source root).depth ≤ 127) :
    Document.read? (Json.compact (Document.encode source root))
        = some (Document.ofSource source root) ∧
      Document.read? (Json.pretty (Document.encode source root))
        = some (Document.ofSource source root) := by
  have hkept := (Document.plain_encode source hfits).kept
  have hdecode := Document.decode?_encode hfits hdepth
  constructor
  · rw [Document.read?, Json.read?_compact hkept]
    exact hdecode
  · rw [Document.read?, Json.read?_pretty hkept]
    exact hdecode

/-- A tree with every kind of node and every kind of value, an attribute's line and column
the greatest there are. -/
def specimen : Node :=
  .other ⟨1, none⟩
    [.element "div" ⟨1, some 1⟩
        ⟨⟨1, some 4⟩, [⟨"class", .static "a \"b\" \\ \n", ⟨1, none⟩⟩,
          ⟨"title", .interpolated "é", ⟨2, some 0⟩⟩]⟩
        [.attr ⟨"hidden", .empty, ⟨18446744073709551615, some 18446744073709551615⟩⟩],
      .attributeList ⟨⟨0, none⟩, [⟨"data-x", .expression "f(x)", ⟨3, none⟩⟩]⟩]

theorem Document.interchange_round_trip_specimen :
    specimen.Fits ∧ (Document.encode "div\n" specimen).depth ≤ 127 ∧
      Document.read? (Json.compact (Document.encode "div\n" specimen))
        = some (Document.ofSource "div\n" specimen) ∧
      Document.read? (Json.pretty (Document.encode "div\n" specimen))
        = some (Document.ofSource "div\n" specimen) := by
  have hfits : specimen.Fits := by
    simp [specimen, Node.Fits, Node.AllFit, AttributeList.Fits, Position.Fits, UInt64.size]
  have hdepth : (Document.encode "div\n" specimen).depth ≤ 127 := by
    decide
  exact ⟨hfits, hdepth, Document.interchange_round_trip hfits hdepth⟩

end Documents

end Template
end WrapLint
