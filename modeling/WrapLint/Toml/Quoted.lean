import WrapLint.Hexadecimal

/-!
# TOML strings

**Input.**  The characters after the opening quotes of a string.

**Output.**  The text of the string and the characters after its closing quotes, or nothing if
the string is malformed.

**Rules.**  Those of TOML 1.1.  A *basic* string stands between double quotes and has escapes,
a *literal* one stands between single quotes and has none.  Either may be written with three
quotes at each end, and then runs over several lines: a line ending right after the opening
quotes is left out, and up to two quotes may stand right before the closing ones.  In a basic
string over several lines a backslash at the end of a line joins it with what follows the
blanks and line endings after it.  A control character other than the tab, and a carriage
return that ends no line, are refused everywhere.
-/

namespace WrapLint
namespace Toml

/-- The blanks inside a line. -/
def isBlank (c : Char) : Bool :=
  c == ' ' || c == '\t'

/-- The characters that strings and comments may hold as they are, their own delimiters and
line endings apart. -/
def isPlain (c : Char) : Bool :=
  c == '\t' || (' ' ≤ c && c != '\x7f')

/-- The character that a short escape stands for. -/
def unescape? : Char → Option Char
  | '"' => some '"'
  | '\\' => some '\\'
  | 'b' => some '\x08'
  | 'e' => some '\x1b'
  | 'f' => some '\x0c'
  | 'n' => some '\n'
  | 'r' => some '\r'
  | 't' => some '\t'
  | _ => none

/-- The text of characters that were collected newest first. -/
def textOf (done : List Char) : String :=
  String.ofList done.reverse

/-- A literal string on one line. -/
def literal? (done : List Char) : List Char → Option (String × List Char)
  | [] => none
  | '\'' :: rest => some (textOf done, rest)
  | c :: rest => if isPlain c then literal? (c :: done) rest else none

/-- The text after one line ending, if there is one. -/
def dropLineEnding : List Char → List Char
  | '\n' :: rest => rest
  | '\r' :: '\n' :: rest => rest
  | text => text

/-- A literal string over several lines. -/
def literalLines? (done : List Char) : List Char → Option (String × List Char)
  | [] => none
  | '\'' :: '\'' :: '\'' :: '\'' :: '\'' :: rest => some (textOf ('\'' :: '\'' :: done), rest)
  | '\'' :: '\'' :: '\'' :: '\'' :: rest => some (textOf ('\'' :: done), rest)
  | '\'' :: '\'' :: '\'' :: rest => some (textOf done, rest)
  | '\r' :: '\n' :: rest => literalLines? ('\n' :: '\r' :: done) rest
  | c :: rest => if isPlain c || c == '\n' then literalLines? (c :: done) rest else none

/-- Where a basic string is with respect to a backslash at the end of a line. -/
inductive Joining where
  /-- In ordinary text. -/
  | no
  /-- After the backslash and blanks: the line must end. -/
  | lineEnds
  /-- After that line ending: blanks and line endings are left out. -/
  | lineStarts
  deriving DecidableEq

/-- A basic string, which runs over `several` lines or stands on one. -/
def basic? (several : Bool) (joining : Joining) (done : List Char) :
    List Char → Option (String × List Char)
  | [] => none
  | '\r' :: '\n' :: rest =>
    if !several then none
    else if joining = .no then basic? several .no ('\n' :: '\r' :: done) rest
    else basic? several .lineStarts done rest
  | c :: rest =>
    if joining = .lineEnds then
      if isBlank c then basic? several .lineEnds done rest
      else if c == '\n' then basic? several .lineStarts done rest
      else none
    else if joining = .lineStarts && (isBlank c || c == '\n') then
      basic? several .lineStarts done rest
    else if c == '"' then
      if !several then some (textOf done, rest)
      else
        match rest with
        | '"' :: '"' :: '"' :: '"' :: rest => some (textOf ('"' :: '"' :: done), rest)
        | '"' :: '"' :: '"' :: rest => some (textOf ('"' :: done), rest)
        | '"' :: '"' :: rest => some (textOf done, rest)
        | rest => basic? several .no ('"' :: done) rest
    else if c == '\\' then
      match rest with
      | 'x' :: a :: b :: rest =>
        match Hexadecimal.character? [a, b] with
        | some c => basic? several .no (c :: done) rest
        | none => none
      | 'u' :: a :: b :: c :: d :: rest =>
        match Hexadecimal.character? [a, b, c, d] with
        | some c => basic? several .no (c :: done) rest
        | none => none
      | 'U' :: a :: b :: c :: d :: e :: f :: g :: h :: rest =>
        match Hexadecimal.character? [a, b, c, d, e, f, g, h] with
        | some c => basic? several .no (c :: done) rest
        | none => none
      | '\n' :: rest => if several then basic? several .lineStarts done rest else none
      | '\r' :: '\n' :: rest => if several then basic? several .lineStarts done rest else none
      | c :: rest =>
        if several && isBlank c then basic? several .lineEnds done rest
        else
          match unescape? c with
          | some c => basic? several .no (c :: done) rest
          | none => none
      | [] => none
    else if isPlain c || (several && c == '\n') then basic? several .no (c :: done) rest
    else none

/-- A string of any of the four kinds, with its opening quotes. -/
def quoted? : List Char → Option (String × List Char)
  | '"' :: '"' :: '"' :: rest => basic? true .no [] (dropLineEnding rest)
  | '\'' :: '\'' :: '\'' :: rest => literalLines? [] (dropLineEnding rest)
  | '"' :: rest => basic? false .no [] rest
  | '\'' :: rest => literal? [] rest
  | _ => none

end Toml
end WrapLint
