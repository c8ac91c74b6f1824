/-!
# Source text and its lines

**Input.**  The text of a template.

**Algorithm.**  A line feed ends a line, and one carriage return right before it belongs to
the line ending.  Text after the last line feed is a line of its own and keeps all its
characters; an empty remainder is no line.
-/

namespace WrapLint
namespace SourceLines

/-- The line whose characters are `current`, newest first, once its line feed is reached:
one carriage return at its end is dropped. -/
def close (current : List Char) : List Char :=
  match current with
  | '\r' :: before => before.reverse
  | before => before.reverse

/-- The lines of a text that continues a line whose characters so far are `current`,
newest first. -/
def splitFrom (current : List Char) : List Char → List (List Char)
  | [] => if current.isEmpty then [] else [current.reverse]
  | c :: rest =>
    if c = '\n' then close current :: splitFrom [] rest else splitFrom (c :: current) rest

/-- The lines of a text, without their endings. -/
def split (text : List Char) : List (List Char) :=
  splitFrom [] text

/-- The lines of a source. -/
def ofSource (source : String) : List String :=
  (split source.toList).map String.ofList

end SourceLines
end WrapLint
