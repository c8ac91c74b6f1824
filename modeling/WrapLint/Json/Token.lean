import WrapLint.Hexadecimal
import WrapLint.Json.Basic

/-!
# The tokens of a JSON text

**Input.**  The characters of a text, with no blank in front.

**Output.**  The first token and the rest of the text, or nothing if the text does not begin
with a token.

**Rules.**  Those of RFC 8259.  In a string every control character below the space must be
written as an escape, and an escape is one of the eight short ones or `\u` with four
hexadecimal digits.  Two such escapes that form a surrogate pair are one character.
-/

namespace WrapLint
namespace Json

/-- The tokens: six structural characters, and the values that are no containers. -/
inductive Token where
  | beginObject
  | endObject
  | beginArray
  | endArray
  | nameSeparator
  | valueSeparator
  | null
  | boolean (value : Bool)
  | number (value : Number)
  | string (value : Text)

/-- The blanks between tokens. -/
def isSpace (c : Char) : Bool :=
  c == ' ' || c == '\n' || c == '\r' || c == '\t'

/-- The character that a short escape stands for. -/
def unescape? : Char → Option Char
  | '"' => some '"'
  | '\\' => some '\\'
  | '/' => some '/'
  | 'b' => some '\x08'
  | 'f' => some '\x0c'
  | 'n' => some '\n'
  | 'r' => some '\r'
  | 't' => some '\t'
  | _ => none

/-- Whether a code unit is the first half of a surrogate pair. -/
def isHighSurrogate (unit : Nat) : Bool :=
  0xD800 ≤ unit && unit < 0xDC00

/-- Whether a code unit is the second half of a surrogate pair. -/
def isLowSurrogate (unit : Nat) : Bool :=
  0xDC00 ≤ unit && unit < 0xE000

/-- The character of a surrogate pair. -/
def ofSurrogates (high low : Nat) : Char :=
  Char.ofNat (0x10000 + (high - 0xD800) * 0x400 + (low - 0xDC00))

/-- The text after a string literal, whose opening quote and some characters are already
read.  Escapes need only be well formed. -/
def Text.skip : List Char → Option (List Char)
  | [] => none
  | '"' :: rest => some rest
  | '\\' :: 'u' :: a :: b :: c :: d :: rest =>
    if (Hexadecimal.value? [a, b, c, d]).isSome then Text.skip rest else none
  | '\\' :: c :: rest => if (unescape? c).isSome then Text.skip rest else none
  | c :: rest => if c < ' ' then none else Text.skip rest

/-- A broken literal: what is left of it is only checked. -/
def Text.scanBroken (rest : List Char) : Option (Text × List Char) :=
  (Text.skip rest).map (fun rest => (.broken, rest))

/-- The rest of a string literal whose characters so far are `done`, newest first. -/
def Text.scan (done : List Char) : List Char → Option (Text × List Char)
  | [] => none
  | '"' :: rest => some (.whole (String.ofList done.reverse), rest)
  | '\\' :: 'u' :: a :: b :: c :: d :: rest =>
    match Hexadecimal.value? [a, b, c, d] with
    | none => none
    | some unit =>
      if isHighSurrogate unit then
        match rest with
        | '\\' :: 'u' :: e :: f :: g :: h :: after =>
          match Hexadecimal.value? [e, f, g, h] with
          | none => none
          | some low =>
            if isLowSurrogate low then Text.scan (ofSurrogates unit low :: done) after
            else Text.scanBroken rest
        | _ => Text.scanBroken rest
      else if isLowSurrogate unit then Text.scanBroken rest
      else Text.scan (Char.ofNat unit :: done) rest
  | '\\' :: c :: rest =>
    match unescape? c with
    | none => none
    | some c => Text.scan (c :: done) rest
  | c :: rest => if c < ' ' then none else Text.scan (c :: done) rest

/-- The longest run of digits, and what follows it. -/
def digits (text : List Char) : List Char × List Char :=
  (text.takeWhile Char.isDigit, text.dropWhile Char.isDigit)

/-- The digits before the point: a single zero, or a run that does not begin with one. -/
def wholeDigits? : List Char → Option (List Char × List Char)
  | '0' :: rest => some (['0'], rest)
  | c :: rest => if c.isDigit then some (digits (c :: rest)) else none
  | [] => none

/-- The digits after the point, none if there is no point. -/
def fractionDigits? : List Char → Option (List Char × List Char)
  | '.' :: c :: rest => if c.isDigit then some (digits (c :: rest)) else none
  | '.' :: [] => none
  | text => some ([], text)

/-- Whether an exponent is negative, and what follows its sign. -/
def exponentSign : List Char → Bool × List Char
  | '-' :: rest => (true, rest)
  | '+' :: rest => (false, rest)
  | text => (false, text)

/-- The exponent after its letter: a sign that may be missing, and at least one digit. -/
def signedExponent? (text : List Char) : Option (Int × List Char) :=
  let (negative, text) := exponentSign text
  match digits text with
  | ([], _) => none
  | (ds, rest) =>
    let n : Int := Nat.ofDigitChars 10 ds 0
    some (if negative then -n else n, rest)

/-- The exponent, none if there is no letter for one. -/
def exponent? : List Char → Option (Option Int × List Char)
  | [] => some (none, [])
  | c :: rest =>
    if c = 'e' ∨ c = 'E' then (signedExponent? rest).map (fun (n, rest) => (some n, rest))
    else some (none, c :: rest)

/-- A number literal after its sign. -/
def Number.scanMagnitude (negative : Bool) (text : List Char) :
    Option (Number × List Char) := do
  let (whole, text) ← wholeDigits? text
  let (fraction, text) ← fractionDigits? text
  let (exponent, text) ← exponent? text
  if fraction.isEmpty && exponent.isNone then
    some (.integer negative (Nat.ofDigitChars 10 whole 0), text)
  else
    some (.decimal negative
      (.ofDigits (whole ++ fraction) (exponent.getD 0 - fraction.length)), text)

/-- A number literal. -/
def Number.scan : List Char → Option (Number × List Char)
  | '-' :: rest => Number.scanMagnitude true rest
  | text => Number.scanMagnitude false text

/-- The first token of a text and the rest of the text. -/
def Token.scan : List Char → Option (Token × List Char)
  | '{' :: rest => some (.beginObject, rest)
  | '}' :: rest => some (.endObject, rest)
  | '[' :: rest => some (.beginArray, rest)
  | ']' :: rest => some (.endArray, rest)
  | ':' :: rest => some (.nameSeparator, rest)
  | ',' :: rest => some (.valueSeparator, rest)
  | '"' :: rest => (Text.scan [] rest).map (fun (value, rest) => (.string value, rest))
  | 'n' :: 'u' :: 'l' :: 'l' :: rest => some (.null, rest)
  | 't' :: 'r' :: 'u' :: 'e' :: rest => some (.boolean true, rest)
  | 'f' :: 'a' :: 'l' :: 's' :: 'e' :: rest => some (.boolean false, rest)
  | text => (Number.scan text).map (fun (value, rest) => (.number value, rest))

end Json
end WrapLint
