import WrapLint.Json.Basic

/-!
# Writing JSON

**Input.**  A value and a layout, which says what stands at a line break and after the colon
of a member.

**Output.**  The characters of a text that writes the value.  A quote, a backslash and the
control characters below the space are written as escapes, the short form where there is one;
every other character stands for itself.

**Contents.**  Two layouts: `compact` has no blanks at all, `pretty` puts every item and every
member on a line of its own, two spaces deeper than its container.  An empty container has
nothing between its brackets in either.
-/

namespace WrapLint
namespace Json

/-- The escape of a character inside a string literal, or the character itself. -/
def escape (c : Char) : List Char :=
  match c with
  | '"' => ['\\', '"']
  | '\\' => ['\\', '\\']
  | '\x08' => ['\\', 'b']
  | '\x0c' => ['\\', 'f']
  | '\n' => ['\\', 'n']
  | '\r' => ['\\', 'r']
  | '\t' => ['\\', 't']
  | c =>
    if c < ' ' then
      ['\\', 'u', '0', '0', Nat.digitChar (c.toNat / 16), Nat.digitChar (c.toNat % 16)]
    else [c]

/-- A string literal.  A broken one is written with half of a surrogate pair in it. -/
def Text.print : Text → List Char
  | .whole text => '"' :: (text.toList.flatMap escape ++ ['"'])
  | .broken => "\"\\ud800\"".toList

/-- The sign of a literal. -/
def sign (negative : Bool) : List Char :=
  if negative then ['-'] else []

/-- A number literal. -/
def Number.print : Number → List Char
  | .integer negative magnitude => sign negative ++ Nat.toDigits 10 magnitude
  | .decimal negative magnitude =>
    sign negative ++ Nat.toDigits 10 magnitude.coefficient ++ 'e' ::
      (sign (magnitude.exponent < 0) ++ Nat.toDigits 10 magnitude.exponent.natAbs)

/-- What stands between the tokens: at a line break inside this many containers, and after
the colon of a member. -/
structure Layout where
  lineBreak : Nat → List Char
  afterColon : List Char

mutual

/-- The text of a value that stands inside `depth` containers. -/
def print (layout : Layout) (depth : Nat) : Json → List Char
  | .null => "null".toList
  | .boolean true => "true".toList
  | .boolean false => "false".toList
  | .number value => value.print
  | .string value => value.print
  | .array [] => ['[', ']']
  | .array (item :: items) =>
    '[' :: (layout.lineBreak (depth + 1) ++ print layout (depth + 1) item
      ++ printItems layout (depth + 1) items ++ layout.lineBreak depth ++ [']'])
  | .object [] => ['{', '}']
  | .object ((name, value) :: members) =>
    '{' :: (layout.lineBreak (depth + 1) ++ name.print ++ ':' :: layout.afterColon
      ++ print layout (depth + 1) value
      ++ printMembers layout (depth + 1) members ++ layout.lineBreak depth ++ ['}'])

/-- The items of an array after the first. -/
def printItems (layout : Layout) (depth : Nat) : List Json → List Char
  | [] => []
  | item :: items =>
    ',' :: (layout.lineBreak depth ++ print layout depth item ++ printItems layout depth items)

/-- The members of an object after the first. -/
def printMembers (layout : Layout) (depth : Nat) : List (Text × Json) → List Char
  | [] => []
  | (name, value) :: members =>
    ',' :: (layout.lineBreak depth ++ name.print ++ ':' :: layout.afterColon
      ++ print layout depth value ++ printMembers layout depth members)

end

/-- No blanks between the tokens. -/
def Layout.compact : Layout :=
  ⟨fun _ => [], []⟩

/-- One item or member to a line, two spaces deeper than its container. -/
def Layout.pretty : Layout :=
  ⟨fun depth => '\n' :: List.replicate (2 * depth) ' ', [' ']⟩

/-- The text of a value without blanks. -/
def compact (value : Json) : String :=
  String.ofList (print .compact 0 value)

/-- The text of a value over several lines. -/
def pretty (value : Json) : String :=
  String.ofList (print .pretty 0 value)

end Json
end WrapLint
