import WrapLint.Style

/-!
# Reading one line of a template

Whether a line breaks a style is decided from its text alone.

**Input.**  The characters of a line and a style.

**Algorithm.**  Skip the blanks, take the longest run of selector characters, and look at
the character that follows.  A space may introduce bare attributes, an opening bracket
wrapped ones.  Nothing has to be tried twice: no selector character is a blank, a space or
a bracket, so the place where the selector ends is the only one at which the rest of the
line can be read.

**Contents.**  `hasAttributes`, `isDoctype`, `conforms`, and `violates`, which combines
the three.
-/

namespace WrapLint
namespace Line

/-- The six ASCII blanks: tab, line feed, vertical tab, form feed, carriage return, space. -/
def isBlank (c : Char) : Bool :=
  c == ' ' || ('\t' ≤ c && c ≤ '\r')

/-- Characters that may begin a selector such as `div`, `.total` or `#main`. -/
def isSelectorStart (c : Char) : Bool :=
  c.isAlphanum || c == '_' || c == '.' || c == '#'

/-- Characters that may continue a selector. -/
def isSelectorChar (c : Char) : Bool :=
  isSelectorStart c || c == '-'

/-- ASCII letters, digits and the underscore. -/
def isWordChar (c : Char) : Bool :=
  c.isAlphanum || c == '_'

/-- The three opening brackets. -/
def isOpening (c : Char) : Bool :=
  c == '(' || c == '{' || c == '['

/-- The three closing brackets. -/
def isClosing (c : Char) : Bool :=
  c == ')' || c == '}' || c == ']'

/-- What follows the indentation and the selector; nothing if there is no selector. -/
def afterSelector (line : List Char) : Option (List Char) :=
  match line.dropWhile isBlank with
  | [] => none
  | c :: rest => if isSelectorStart c then some (rest.dropWhile isSelectorChar) else none

/-- The text up to the first line feed. -/
def untilLineFeed (text : List Char) : List Char :=
  text.takeWhile (fun c => c != '\n')

/-- Whether an equals sign stands before the last character of the first line. -/
def hasAssignment (text : List Char) : Bool :=
  (untilLineFeed text).dropLast.contains '='

/-- Whether the line has a selector followed by attributes: a space and an assignment, or
an opening bracket and at least one more character. -/
def hasAttributes (line : List Char) : Bool :=
  match afterSelector line with
  | some (c :: rest) =>
    (c == ' ' && hasAssignment rest) || (isOpening c && !(untilLineFeed rest).isEmpty)
  | _ => false

/-- Whether the line is a document type declaration: the word `doctype` after the
indentation, not continued by another word character. -/
def isDoctype (line : List Char) : Bool :=
  let text := line.dropWhile isBlank
  "doctype".toList.isPrefixOf text
    && !((text.drop "doctype".length).head?.any isWordChar)

/-- Whether this character, right after the selector, opens the attributes in this style. -/
def opens (style : Style) (c : Char) : Bool :=
  match style with
  | .unwrapped => c == ' '
  | .round => c == '('
  | .curly => c == '{'
  | .square => c == '['
  | .any => isOpening c

/-- Whether the attributes that were opened are closed somewhere in this text. -/
def closes (style : Style) (text : List Char) : Bool :=
  match style with
  | .unwrapped => true
  | .round => text.contains ')'
  | .curly => text.contains '}'
  | .square => text.contains ']'
  | .any => text.any isClosing

/-- Whether the line writes its attributes in this style.  The line must be one line: a
line feed after the selector makes it conform to no style. -/
def conforms (style : Style) (line : List Char) : Bool :=
  match afterSelector line with
  | some (c :: rest) => opens style c && !rest.contains '\n' && closes style rest
  | _ => false

/-- Whether the line has attributes, is no document type declaration, and does not write
them in this style. -/
def violates (style : Style) (line : List Char) : Bool :=
  hasAttributes line && !isDoctype line && !conforms style line

end Line
end WrapLint
