import WrapLint.Decimal
import WrapLint.Hexadecimal
import WrapLint.Toml.Value

/-!
# Booleans, numbers and date-times

**Input.**  A run of letters, digits, signs, underscores, points and colons, and for a
date-time one space.

**Output.**  The value that the run writes, or nothing.

**Rules.**  Those of TOML 1.1.  An underscore stands between two digits.  A decimal number has
no leading zero.  An integer fits 64 bits with sign, and a float that is no infinity must not
round to one.  A date exists in the calendar; seconds may be left out, and may be 60 for a
leap second.
-/

namespace WrapLint
namespace Toml

section Numbers

/-- The digits of a run in which single underscores may stand between digits. -/
def ungroup? (isDigit : Char → Bool) (run : List Char) : Option (List Char) :=
  let groups := run.splitOn '_'
  if groups.all (fun group => !group.isEmpty && group.all isDigit) then some groups.flatten
  else none

/-- The digits of a decimal number without sign: a single zero, or no zero in front. -/
def decimalDigits? (run : List Char) : Option (List Char) := do
  let ds ← ungroup? Char.isDigit run
  if ds.head? = some '0' ∧ ds.length ≠ 1 then none else some ds

/-- Whether a number is negative, and what follows its sign. -/
def splitSign : List Char → Bool × List Char
  | '-' :: rest => (true, rest)
  | '+' :: rest => (false, rest)
  | run => (false, run)

/-- The magnitude of an integer with a base prefix. -/
def prefixed? : List Char → Option Nat
  | '0' :: 'x' :: rest => do
    Hexadecimal.value? (← ungroup? (fun c => (Hexadecimal.digit? c).isSome) rest)
  | '0' :: 'o' :: rest => do
    let ds ← ungroup? (fun c => '0' ≤ c && c ≤ '7') rest
    some (Nat.ofDigitChars 8 ds 0)
  | '0' :: 'b' :: rest => do
    let ds ← ungroup? (fun c => c == '0' || c == '1') rest
    some (Nat.ofDigitChars 2 ds 0)
  | _ => none

/-- An integer before its range is looked at.  Only a decimal one may have a sign. -/
def unboundedInteger? (run : List Char) : Option Int :=
  match prefixed? run with
  | some n => some n
  | none => do
    let (negative, run) := splitSign run
    let n : Int := Nat.ofDigitChars 10 (← decimalDigits? run) 0
    some (if negative then -n else n)

/-- The exponent of a float, after its letter. -/
def floatExponent? (run : List Char) : Option Int := do
  let (negative, run) := splitSign run
  let n : Int := Nat.ofDigitChars 10 (← ungroup? Char.isDigit run) 0
  some (if negative then -n else n)

/-- The magnitude of a float that is a number: digits, and after them a fraction, an exponent
or both. -/
def floatMagnitude? (run : List Char) : Option Decimal := do
  let mantissa := run.takeWhile (fun c => c != 'e' && c != 'E')
  let exponent ← match run.drop mantissa.length with
    | [] => some none
    | _ :: rest => (floatExponent? rest).map some
  let whole := mantissa.takeWhile (fun c => c != '.')
  let fraction ← match mantissa.drop whole.length with
    | [] => some none
    | _ :: rest => (ungroup? Char.isDigit rest).map some
  if exponent.isNone && fraction.isNone then none
  else
    let fraction := fraction.getD []
    some ⟨Nat.ofDigitChars 10 ((← decimalDigits? whole) ++ fraction) 0,
      exponent.getD 0 - fraction.length⟩

/-- Whether the run is a float. -/
def isFloat (run : List Char) : Bool :=
  let (_, run) := splitSign run
  run == "inf".toList || run == "nan".toList
    || (floatMagnitude? run).any (fun magnitude => !magnitude.overflows)

end Numbers

section Times

/-- The number that the first `n` characters write, if they are digits, and the rest. -/
def fixedDigits? (n : Nat) (run : List Char) : Option (Nat × List Char) :=
  let ds := run.take n
  if ds.length = n ∧ ds.all Char.isDigit then some (Nat.ofDigitChars 10 ds 0, run.drop n)
  else none

/-- The rest of a run that begins with this character. -/
def expect? (c : Char) : List Char → Option (List Char)
  | [] => none
  | d :: rest => if c = d then some rest else none

/-- The number of days of a month. -/
def daysInMonth (year month : Nat) : Nat :=
  if month = 2 then
    if year % 4 = 0 ∧ (year % 100 ≠ 0 ∨ year % 400 = 0) then 29 else 28
  else if month = 4 ∨ month = 6 ∨ month = 9 ∨ month = 11 then 30
  else 31

/-- A number with at least this many digits. -/
def padded (width n : Nat) : String :=
  let ds := Nat.toDigits 10 n
  String.ofList (List.replicate (width - ds.length) '0' ++ ds)

/-- The canonical text of a date at the front of a run. -/
def date? (run : List Char) : Option (String × List Char) := do
  let (year, run) ← fixedDigits? 4 run
  let (month, run) ← fixedDigits? 2 (← expect? '-' run)
  let (day, run) ← fixedDigits? 2 (← expect? '-' run)
  if 1 ≤ month ∧ month ≤ 12 ∧ 1 ≤ day ∧ day ≤ daysInMonth year month then
    some (padded 4 year ++ "-" ++ padded 2 month ++ "-" ++ padded 2 day, run)
  else none

/-- The canonical text of a fraction of a second: nine digits at most, no zeros at the end. -/
def fractionText (ds : List Char) : String :=
  match ((ds.take 9).reverse.dropWhile (fun c => c == '0')).reverse with
  | [] => ""
  | ds => "." ++ String.ofList ds

/-- The canonical text of the seconds at the front of a run; none stand for zero. -/
def seconds? : List Char → Option (String × List Char)
  | ':' :: run => do
    let (second, run) ← fixedDigits? 2 run
    if 60 < second then none
    else
      match run with
      | '.' :: run =>
        let ds := run.takeWhile Char.isDigit
        if ds.isEmpty then none
        else some (":" ++ padded 2 second ++ fractionText ds, run.drop ds.length)
      | run => some (":" ++ padded 2 second, run)
  | run => some (":00", run)

/-- The canonical text of a time at the front of a run. -/
def time? (run : List Char) : Option (String × List Char) := do
  let (hour, run) ← fixedDigits? 2 run
  let (minute, run) ← fixedDigits? 2 (← expect? ':' run)
  let (seconds, run) ← seconds? run
  if hour ≤ 23 ∧ minute ≤ 59 then
    some (padded 2 hour ++ ":" ++ padded 2 minute ++ seconds, run)
  else none

/-- The canonical text of an offset that is the whole run; no offset at all is allowed. -/
def offset? : List Char → Option String
  | [] => some ""
  | ['Z'] | ['z'] => some "Z"
  | c :: run => do
    if c ≠ '+' ∧ c ≠ '-' then none
    else
      let (hours, run) ← fixedDigits? 2 run
      let (minutes, run) ← fixedDigits? 2 (← expect? ':' run)
      if run.isEmpty ∧ hours ≤ 23 ∧ minutes ≤ 59 then
        let sign := if c = '-' ∧ 0 < hours * 60 + minutes then "-" else "+"
        some (sign ++ padded 2 hours ++ ":" ++ padded 2 minutes)
      else none

/-- The canonical text of a date-time, a date or a time that is the whole run. -/
def datetime? (run : List Char) : Option String :=
  match date? run with
  | some (date, []) => some date
  | some (date, c :: run) => do
    if c ≠ 'T' ∧ c ≠ 't' ∧ c ≠ ' ' then none
    else
      let (time, run) ← time? run
      some (date ++ "T" ++ time ++ (← offset? run))
  | none =>
    match time? run with
    | some (time, []) => some time
    | _ => none

end Times

/-- The value that a run writes. -/
def scalar? (run : List Char) : Option Value :=
  if run = "true".toList then some (.boolean true)
  else if run = "false".toList then some (.boolean false)
  else
    match unboundedInteger? run with
    | some n =>
      if Int64.minValue.toInt ≤ n ∧ n ≤ Int64.maxValue.toInt then some (.integer n) else none
    | none => if isFloat run then some .float else (datetime? run).map .datetime

end Toml
end WrapLint
