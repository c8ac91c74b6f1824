import WrapLint.Toml.Quoted
import WrapLint.Toml.Scalar
import WrapLint.Toml.Tree

/-!
# Reading a TOML document

**Input.**  The characters of a document.

**Algorithm.**  The document is read statement by statement: a header in single brackets, a
header in double brackets, or an assignment.  Each changes the tables under construction at
once, so a key that is written twice is found when it is met.

**Output.**  The entries of the root table, or nothing if the document is refused.

**Rules.**  Those of TOML 1.1: an inline table may run over several lines, also around an
equals sign but not inside a dotted key, and may end with a comma.  A byte order mark at the
beginning is left out.  Arrays and inline tables nest at most `nestingLimit` deep, and a dotted
key has at most `keyPartsLimit` parts.

**Termination.**  Reading takes fuel, and every step uses some.  A step also takes at least
one character, or hands on to one that does, so four units for each character are enough.
-/

namespace WrapLint
namespace Toml

/-- The number of arrays and inline tables that may be open at the same place. -/
def nestingLimit : Nat := 80

section Gaps

/-- The text after blanks. -/
def skipBlanks (text : List Char) : List Char :=
  text.dropWhile isBlank

/-- The text after blanks, line endings and comments, or nothing if a comment holds a
character that it may not hold. -/
def skipGap? (inComment : Bool) : List Char → Option (List Char)
  | [] => some []
  | '\n' :: rest => skipGap? false rest
  | '\r' :: '\n' :: rest => skipGap? false rest
  | c :: rest =>
    if inComment then if isPlain c then skipGap? true rest else none
    else if isBlank c then skipGap? false rest
    else if c == '#' then skipGap? true rest
    else some (c :: rest)

/-- The text after the end of a line: blanks, perhaps a comment, and a line ending or the end
of the document. -/
def endLine? (inComment : Bool) : List Char → Option (List Char)
  | [] => some []
  | '\n' :: rest => some rest
  | '\r' :: '\n' :: rest => some rest
  | c :: rest =>
    if inComment then if isPlain c then endLine? true rest else none
    else if isBlank c then endLine? false rest
    else if c == '#' then endLine? true rest
    else none

end Gaps

section Keys

/-- The characters of a bare key. -/
def isBareKeyChar (c : Char) : Bool :=
  c.isAlphanum || c == '_' || c == '-'

/-- One key, bare or quoted on one line. -/
def simpleKey? (text : List Char) : Option (String × List Char) :=
  match text with
  | '"' :: rest => basic? false .no [] rest
  | '\'' :: rest => literal? [] rest
  | text =>
    let bare := text.takeWhile isBareKeyChar
    if bare.isEmpty then none else some (String.ofList bare, text.drop bare.length)

/-- The number of parts that a dotted key may have. -/
def keyPartsLimit : Nat := 80

/-- A dotted key of at most so many parts: the path, the last key and the text after it. -/
def dottedKeyWithin? : Nat → List Char → Option (List String × String × List Char)
  | 0, _ => none
  | parts + 1, text => do
    let (key, text) ← simpleKey? text
    match skipBlanks text with
    | '.' :: rest =>
      let (path, last, rest) ← dottedKeyWithin? parts (skipBlanks rest)
      some (key :: path, last, rest)
    | text => some ([], key, text)

/-- A dotted key: the path, the last key and the text after it. -/
def dottedKey? (text : List Char) : Option (List String × String × List Char) :=
  dottedKeyWithin? keyPartsLimit text

end Keys

section Values

/-- The characters of a run that writes a scalar. -/
def isScalarChar (c : Char) : Bool :=
  c.isAlphanum || c == '_' || c == '+' || c == '-' || c == '.' || c == ':'

/-- A scalar.  A date takes in the time that follows it after one space. -/
def scalarRun? (text : List Char) : Option (Value × List Char) :=
  let run := text.takeWhile isScalarChar
  let rest := text.drop run.length
  match date? run, rest with
  | some (_, []), ' ' :: c :: more =>
    if c.isDigit then
      let time := (c :: more).takeWhile isScalarChar
      (scalar? (run ++ ' ' :: time)).map (fun value => (value, (c :: more).drop time.length))
    else (scalar? run).map (fun value => (value, rest))
  | _, _ => (scalar? run).map (fun value => (value, rest))

mutual

/-- A value at the front of a text; `depth` is how many more containers may be opened. -/
def value? : Nat → Nat → List Char → Option (Value × List Char)
  | 0, _, _ => none
  | fuel + 1, depth, text =>
    match text with
    | '"' :: _ | '\'' :: _ => (quoted? text).map (fun (text, rest) => (.string text, rest))
    | '[' :: rest =>
      if depth = 0 then none
      else do
        let (items, rest) ← arrayItems? fuel (depth - 1) (← skipGap? false rest)
        some (.array items, rest)
    | '{' :: rest =>
      if depth = 0 then none
      else do
        let (entries, rest) ← inlineEntries? fuel (depth - 1) [] (← skipGap? false rest)
        some (.table (Tree.toEntries entries), rest)
    | text => scalarRun? text

/-- The items of an array up to its closing bracket. -/
def arrayItems? : Nat → Nat → List Char → Option (List Value × List Char)
  | 0, _, _ => none
  | fuel + 1, depth, text =>
    match text with
    | ']' :: rest => some ([], rest)
    | text => do
      let (item, text) ← value? fuel depth text
      match ← skipGap? false text with
      | ']' :: rest => some ([item], rest)
      | ',' :: rest =>
        let (items, rest) ← arrayItems? fuel depth (← skipGap? false rest)
        some (item :: items, rest)
      | _ => none

/-- The entries of an inline table up to its closing brace, after these. -/
def inlineEntries? : Nat → Nat → Entries → List Char → Option (Entries × List Char)
  | 0, _, _, _ => none
  | fuel + 1, depth, entries, text =>
    match text with
    | '}' :: rest => some (entries, rest)
    | text => do
      let (path, key, text) ← dottedKey? text
      match ← skipGap? false text with
      | '=' :: rest =>
        let (value, text) ← value? fuel depth (← skipGap? false rest)
        let entries ← assignIn path key value .opened entries
        match ← skipGap? false text with
        | '}' :: rest => some (entries, rest)
        | ',' :: rest => inlineEntries? fuel depth entries (← skipGap? false rest)
        | _ => none
      | _ => none

end

end Values

section Documents

/-- The fuel that is enough for a text. -/
def fuelFor (text : List Char) : Nat :=
  4 * text.length + 4

/-- The statements of a document, carried out on the tables so far.  `header` is the path of
the header in force. -/
def statements? : Nat → List String → Entries → List Char → Option Entries
  | 0, _, _, _ => none
  | fuel + 1, header, root, text => do
    match ← skipGap? false text with
    | [] => some root
    | '[' :: '[' :: rest =>
      let (path, key, rest) ← dottedKey? (skipBlanks rest)
      match rest with
      | ']' :: ']' :: rest =>
        statements? fuel (path ++ [key]) (← openItem path key root) (← endLine? false rest)
      | _ => none
    | '[' :: rest =>
      let (path, key, rest) ← dottedKey? (skipBlanks rest)
      match rest with
      | ']' :: rest =>
        statements? fuel (path ++ [key]) (← openTable path key root) (← endLine? false rest)
      | _ => none
    | text =>
      let (path, key, text) ← dottedKey? text
      match text with
      | '=' :: rest =>
        let (value, rest) ← value? fuel nestingLimit (skipBlanks rest)
        statements? fuel header (← assign header path key value root) (← endLine? false rest)
      | _ => none

/-- The text without a byte order mark in front. -/
def dropByteOrderMark : List Char → List Char
  | '\uFEFF' :: rest => rest
  | text => text

/-- The entries that a document writes. -/
def read? (text : String) : Option (List (String × Value)) :=
  let text := dropByteOrderMark text.toList
  (statements? (fuelFor text) [] [] text).map Tree.toEntries

end Documents

end Toml
end WrapLint
