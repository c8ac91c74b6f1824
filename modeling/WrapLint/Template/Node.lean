/-!
# The syntax tree of a template

A template reaches the linter together with the tree that its parser built.  The tree has
elements, lists of attributes, single attributes, and other nodes that only group children.

**Contents.**  The types of the tree, and the notion of *shorthand*: an attribute that a
selector such as `div.total#main` can express, namely a `class` or an `id` whose value is
plain text.
-/

namespace WrapLint

namespace Template

/-- A place in the source: a line, counted from one, and sometimes a column.  Any numbers
may come in with a tree, also ones that the source does not have. -/
structure Position where
  line : Nat
  column : Option Nat
  deriving DecidableEq

/-- The value of an attribute. -/
inductive AttributeValue where
  /-- Plain text. -/
  | static (text : String)
  /-- Text with parts that are computed. -/
  | interpolated (text : String)
  /-- Code. -/
  | expression (code : String)
  | empty
  deriving DecidableEq

/-- An attribute of an element, or one that stands alone. -/
structure Attribute where
  name : String
  value : AttributeValue
  position : Position
  deriving DecidableEq

/-- The attributes written together at one place. -/
structure AttributeList where
  position : Position
  attributes : List Attribute
  deriving DecidableEq

/-- A node of the tree. -/
inductive Node where
  | element (tag : String) (position : Position) (attributes : AttributeList)
      (children : List Node)
  | attributeList (list : AttributeList)
  | attr (item : Attribute)
  | other (position : Position) (children : List Node)

/-- Whether the value is plain text. -/
def AttributeValue.isStatic : AttributeValue → Bool
  | .static _ => true
  | _ => false

/-- Whether a selector can express the attribute. -/
def Attribute.isShorthand (item : Attribute) : Bool :=
  (item.name == "class" || item.name == "id") && item.value.isStatic

/-- The line an attribute stands on. -/
def Attribute.line (item : Attribute) : Nat :=
  item.position.line

/-- The attributes of an element that names none: an empty list on the first line. -/
def AttributeList.absent : AttributeList :=
  ⟨⟨1, none⟩, []⟩

/-- Whether a selector can express every attribute of the list. -/
def AttributeList.hasOnlyShorthand (list : AttributeList) : Bool :=
  list.attributes.all Attribute.isShorthand

end Template
end WrapLint
