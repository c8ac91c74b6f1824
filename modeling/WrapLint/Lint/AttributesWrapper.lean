import WrapLint.Line
import WrapLint.LineMap
import WrapLint.Lint.Basic

/-!
# The attribute wrapper check

Every line that has attributes must write them in the style of the project.

**Input.**  A style and a document.

**Algorithm.**  Two passes, which share two maps keyed by line.

* The *tree pass* visits the elements.  It marks the line of the element and the lines of its
  attributes: a line is *loose* once an attribute on it is more than shorthand, and *tight*
  until then.  On the line of each attribute that is more than shorthand it looks at the text,
  and the first such attribute on a line that breaks the style gives the lint of that line its
  position.
* The *text pass* goes through the lines.  It leaves out lines that have a lint, and tight
  lines: what the tree has there can be written in a selector.  On the others it looks at the
  text.

**Output.**  At most one lint for a line, from the first line to the last.
-/

namespace WrapLint
namespace AttributesWrapper

open Template (Document Position Attribute AttributeList Visitor)

/-- The name of the check. -/
def name : String :=
  "AttributesWrapper"

/-- The lint of a line that breaks the style. -/
def lintAt (style : Style) (location : Location) : Lint :=
  ⟨name, location, style.message⟩

/-- Whether the document has this line and its text breaks the style. -/
def lineViolates (style : Style) (document : Document) (line : Nat) : Bool :=
  (document.line? line).any (fun text => Line.violates style text.toList)

/-- What the tree pass has so far: for each line that was marked whether it is loose, and the
lints that were found. -/
structure Scan where
  loose : LineMap Bool
  lints : LineMap Lint

namespace Scan

/-- The scan before the first element. -/
def start : Scan :=
  ⟨.empty, .empty⟩

/-- The marks with this line marked, tight if it had no mark. -/
def markElement (loose : LineMap Bool) (line : Nat) : LineMap Bool :=
  if loose.contains line then loose else loose.insert line false

/-- The marks with the line of an attribute marked, loose if the attribute makes it so or if
it was loose. -/
def markAttribute (loose : LineMap Bool) (item : Attribute) : LineMap Bool :=
  loose.insert item.line ((loose.get? item.line).getD false || !item.isShorthand)

/-- The lints after an attribute that is more than shorthand. -/
def checkAttribute (style : Style) (document : Document) (lints : LineMap Lint)
    (item : Attribute) : LineMap Lint :=
  if lints.contains item.line || !lineViolates style document item.line then lints
  else lints.insert item.line (lintAt style (.node item.position))

/-- The scan after an element at this position with these attributes. -/
def visitElement (style : Style) (document : Document) (position : Position)
    (list : AttributeList) (scan : Scan) : Scan :=
  let loose := list.attributes.foldl markAttribute (markElement scan.loose position.line)
  if list.hasOnlyShorthand then ⟨loose, scan.lints⟩
  else
    ⟨loose, (list.attributes.filter (fun item => !item.isShorthand)).foldl
      (checkAttribute style document) scan.lints⟩

/-- The tree pass as a visitor.  Only elements matter to it. -/
def visitor (style : Style) (document : Document) : Visitor Scan where
  onElement := fun _ position list _ scan => scan.visitElement style document position list

/-- The tree pass over a whole document. -/
def ofDocument (style : Style) (document : Document) : Scan :=
  document.walk (visitor style document) start

/-- The lints after the text pass has looked at one line. -/
def checkLine (style : Style) (loose : LineMap Bool) (lints : LineMap Lint)
    (line : String × Nat) : LineMap Lint :=
  if lints.contains line.2 || loose.get? line.2 == some false then lints
  else if Line.violates style line.1.toList then
    lints.insert line.2 (lintAt style (.line line.2))
  else lints

end Scan

/-- The lints of a document. -/
def run (style : Style) (document : Document) : List Lint :=
  let scan := Scan.ofDocument style document
  ((document.lines.zipIdx 1).foldl (Scan.checkLine style scan.loose) scan.lints).values

/-- The check for this style as a linter. -/
def linter (style : Style) : Linter :=
  ⟨name, run style⟩

end AttributesWrapper
end WrapLint
