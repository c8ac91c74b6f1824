import WrapLint.Json.Reader
import WrapLint.Json.Printer
import WrapLint.Template.Document

/-!
# The interchange form of documents

A document comes in as a JSON text: an object with the members `source` and `root`, or the
array of the two.

**Nodes.**  A node is an object.  Its member `kind` names the kind: `element`,
`attribute_list`, `attribute` or `other`.  Every node, and every attribute and attribute list
inside an element, has a `line` and may have a `column`.  An element has a `tag` and may have
`attributes` and `children`; a list may have `attributes`; an attribute has a `name` and a
`value`; an `other` node may have `children`.  A value is an object with the members `type`
and `value`, or the array of the two.

**Words by number.**  The kinds of nodes and the types of values are words.  Below the root a
kind may be given by its place in `nodeKinds`, counted from zero, and the type in an array by
its place in `valueTypes`.  The type in an object may be an object instead, whose only member
has the word as its name and holds nothing.

**Refusals.**  A member that is named here must not occur twice.  What is left out takes its
default, but nothing may be `null` except a column, and the content of an empty value.  Other
members are ignored.  The tree must be sound: containers nest at most `depthLimit` deep with
the document's own, every string is whole, and every number fits a double.  The members of
the document itself that are ignored need not be.

**Contents.**  `Document.read?` and, in the other direction, `Document.encode`.
-/

namespace WrapLint
namespace Template

open Json (Text member? required?)

/-- The number of containers that may be open at the same place. -/
def depthLimit : Nat := 127

section Decoding

/-- A column: a number, or nothing if it is left out or `null`. -/
def decodeColumn? : Option Json → Option (Option Nat)
  | none | some .null => some none
  | some column => column.natural?.map some

/-- The position that the members of an object give. -/
def Position.decode? (members : List (Text × Json)) : Option Position := do
  let line ← (← required? "line" members).natural?
  let column ← decodeColumn? (← member? "column" members)
  some ⟨line, column⟩

/-- The kinds of nodes. -/
def nodeKinds : List String :=
  ["element", "attribute_list", "attribute", "other"]

/-- The types of values. -/
def valueTypes : List String :=
  ["static", "interpolated", "expression", "empty"]

/-- A word, given as such or by its place in a list of words. -/
def decodeWord? (words : List String) (value : Json) : Option String :=
  match value.text? with
  | some word => some word
  | none => do words[← value.natural?]?

/-- A word, given as such or as the name of the only member of an object.  The member holds
nothing: `null` or an empty object. -/
def decodeTag? : Json → Option String
  | .object [(.whole word, .null)] | .object [(.whole word, .object [])] => some word
  | value => value.text?

/-- The value of this type with this content. -/
def AttributeValue.ofParts? (kind : String) (content : Option Json) : Option AttributeValue :=
  match kind, content with
  | "static", some content => content.text?.map .static
  | "interpolated", some content => content.text?.map .interpolated
  | "expression", some content => content.text?.map .expression
  | "empty", none | "empty", some .null => some .empty
  | _, _ => none

/-- The value of an attribute. -/
def AttributeValue.decode? : Json → Option AttributeValue
  | .object members => do
    let kind ← decodeTag? (← required? "type" members)
    let content ← member? "value" members
    ofParts? kind content
  | .array [kind, content] => do ofParts? (← decodeWord? valueTypes kind) (some content)
  | _ => none

/-- The attribute that the members of an object give. -/
def Attribute.ofMembers? (members : List (Text × Json)) : Option Attribute := do
  let name ← (← required? "name" members).text?
  let value ← AttributeValue.decode? (← required? "value" members)
  let position ← Position.decode? members
  some ⟨name, value, position⟩

/-- An attribute. -/
def Attribute.decode? : Json → Option Attribute
  | .object members => ofMembers? members
  | _ => none

/-- The items of an array, each read in the same way; none if the array is left out. -/
def decodeItems? {α : Type} (read? : Json → Option α) : Option Json → Option (List α)
  | none => some []
  | some (.array items) => items.mapM read?
  | some _ => none

/-- The list of attributes that the members of an object give. -/
def AttributeList.ofMembers? (members : List (Text × Json)) : Option AttributeList := do
  let position ← Position.decode? members
  let attributes ← decodeItems? Attribute.decode? (← member? "attributes" members)
  some ⟨position, attributes⟩

/-- A list of attributes. -/
def AttributeList.decode? : Json → Option AttributeList
  | .object members => ofMembers? members
  | _ => none

/-- The list of attributes of an element, which may be left out. -/
def AttributeList.decodeOptional? : Option Json → Option AttributeList
  | none => some .absent
  | some value => decode? value

/-- The node that the members of an object give.  `children` are the values of the same
members, each read as a list of nodes. -/
def Node.ofMembers? (members : List (Text × Json))
    (children : List (Text × Option (List Node))) : Option Node := do
  match ← decodeWord? nodeKinds (← required? "kind" members) with
  | "element" =>
    let tag ← (← required? "tag" members).text?
    let position ← Position.decode? members
    let attributes ← AttributeList.decodeOptional? (← member? "attributes" members)
    let children ← (← member? "children" children).getD (some [])
    some (.element tag position attributes children)
  | "attribute_list" => (AttributeList.ofMembers? members).map .attributeList
  | "attribute" => (Attribute.ofMembers? members).map .attr
  | "other" =>
    let position ← Position.decode? members
    let children ← (← member? "children" children).getD (some [])
    some (.other position children)
  | _ => none

mutual

/-- A node and everything below it. -/
def Node.decode? : Json → Option Node
  | .object members => Node.ofMembers? members (Node.decodeMembers members)
  | _ => none

/-- Each member of an object with its value read as a list of nodes. -/
def Node.decodeMembers : List (Text × Json) → List (Text × Option (List Node))
  | [] => []
  | (name, value) :: members => (name, Node.decodeList? value) :: Node.decodeMembers members

/-- A list of nodes. -/
def Node.decodeList? : Json → Option (List Node)
  | .array items => Node.decodeItems? items
  | _ => none

/-- The nodes of a list, all of them or none. -/
def Node.decodeItems? : List Json → Option (List Node)
  | [] => some []
  | item :: items => do
    let node ← Node.decode? item
    let nodes ← Node.decodeItems? items
    some (node :: nodes)

end

/-- Whether the kind of a node is given as a word. -/
def hasKindWord : Json → Bool
  | .object members => ((required? "kind" members).bind Json.text?).isSome
  | _ => false

/-- The document with this source and this tree, if the tree is sound. -/
def Document.ofParts? (source root : Json) : Option Document := do
  let source ← source.text?
  if hasKindWord root && root.soundWithin (depthLimit - 1) then
    some (.ofSource source (← Node.decode? root))
  else none

/-- The document that a value gives. -/
def Document.decode? : Json → Option Document
  | .object members => do
    if members.all (fun member => member.1.isWhole) then
      ofParts? (← required? "source" members) (← required? "root" members)
    else none
  | .array [source, root] => ofParts? source root
  | _ => none

/-- The document that a text writes. -/
def Document.read? (text : String) : Option Document := do
  decode? (← Json.read? text)

end Decoding

section Encoding

/-- The members of a position. -/
def Position.encode (position : Position) : List (String × Json) :=
  ("line", .ofNat position.line) ::
    match position.column with
    | none => []
    | some column => [("column", .ofNat column)]

/-- An attribute's value. -/
def AttributeValue.encode : AttributeValue → Json
  | .static text => .ofMembers [("type", .ofString "static"), ("value", .ofString text)]
  | .interpolated text =>
    .ofMembers [("type", .ofString "interpolated"), ("value", .ofString text)]
  | .expression code => .ofMembers [("type", .ofString "expression"), ("value", .ofString code)]
  | .empty => .ofMembers [("type", .ofString "empty")]

/-- The members of an attribute. -/
def Attribute.members (item : Attribute) : List (String × Json) :=
  [("name", .ofString item.name), ("value", item.value.encode)] ++ item.position.encode

/-- The members of a list of attributes. -/
def AttributeList.members (list : AttributeList) : List (String × Json) :=
  list.position.encode
    ++ [("attributes", .array (list.attributes.map (fun item => .ofMembers item.members)))]

mutual

/-- A node and everything below it, with every default written out. -/
def Node.encode : Node → Json
  | .element tag position attributes children =>
    .ofMembers ([("kind", .ofString "element"), ("tag", .ofString tag)] ++ position.encode
      ++ [("attributes", .ofMembers attributes.members),
          ("children", .array (Node.encodeAll children))])
  | .attributeList list => .ofMembers (("kind", .ofString "attribute_list") :: list.members)
  | .attr item => .ofMembers (("kind", .ofString "attribute") :: item.members)
  | .other position children =>
    .ofMembers (("kind", .ofString "other") :: position.encode
      ++ [("children", .array (Node.encodeAll children))])

/-- Several nodes. -/
def Node.encodeAll : List Node → List Json
  | [] => []
  | node :: nodes => Node.encode node :: Node.encodeAll nodes

end

/-- The document with this source and this tree. -/
def Document.encode (source : String) (root : Node) : Json :=
  .ofMembers [("source", .ofString source), ("root", root.encode)]

end Encoding

end Template
end WrapLint
