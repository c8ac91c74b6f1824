import WrapLint.Decimal

/-!
# JSON values

**Contents.**  The type of JSON values, the limits that a value must keep where its
content matters, and access to the members of an object.

A value keeps what its text says, also where that is not usable: a string in which an escape
names half of a surrogate pair is kept as `broken`, and a number may be one that no double can
hold.
Whether that is an error depends on the place: a member nobody reads may hold both.
`soundWithin` is the test for places that are read.
-/

namespace WrapLint
namespace Json

/-- A string literal. -/
inductive Text where
  | whole (text : String)
  /-- A literal in which an escape leaves a surrogate without its partner. -/
  | broken
  deriving DecidableEq

/-- A number literal. -/
inductive Number where
  /-- Written without fraction and exponent. -/
  | integer (negative : Bool) (magnitude : Nat)
  /-- Written with a fraction, an exponent, or both; only digits that fit 64 bits are kept. -/
  | decimal (negative : Bool) (magnitude : Decimal)
  deriving DecidableEq

end Json

/-- A JSON value.  The members of an object stand in the order of the text, and a name may
occur more than once. -/
inductive Json where
  | null
  | boolean (value : Bool)
  | number (value : Json.Number)
  | string (value : Json.Text)
  | array (items : List Json)
  | object (members : List (Json.Text × Json))

namespace Json

/-- The string value with this text. -/
def ofString (text : String) : Json :=
  .string (.whole text)

/-- The number value of a natural number. -/
def ofNat (n : Nat) : Json :=
  .number (.integer false n)

/-- An object whose names are whole. -/
def ofMembers (members : List (String × Json)) : Json :=
  .object (members.map (fun (name, value) => (.whole name, value)))

/-- The text of a whole string. -/
def text? : Json → Option String
  | .string (.whole text) => some text
  | _ => none

/-- The natural number below `2^64` that a plain integer literal denotes.  A sign, a fraction
or an exponent makes a literal no such number, whatever its value. -/
def natural? : Json → Option Nat
  | .number (.integer false n) => if n < UInt64.size then some n else none
  | _ => none

/-- The member with this name: `none` if the name occurs twice, `some none` if it does not
occur. -/
def member? {α : Type} (name : String) (members : List (Text × α)) : Option (Option α) :=
  match members.filter (fun member => member.1 == .whole name) with
  | [] => some none
  | [member] => some (some member.2)
  | _ => none

/-- The member with this name, which must occur exactly once. -/
def required? {α : Type} (name : String) (members : List (Text × α)) : Option α :=
  (member? name members).join

/-- Whether a double can hold the number, which is rounded in two steps. -/
def Number.isFinite : Number → Bool
  | .integer _ magnitude => !(Decimal.ofDigits (Nat.toDigits 10 magnitude) 0).productOverflows
  | .decimal _ magnitude => !magnitude.productOverflows

/-- Whether the string has all its characters. -/
def Text.isWhole : Text → Bool
  | .whole _ => true
  | .broken => false

mutual

/-- Whether arrays and objects nest at most `depth` deep, every string is whole and every
number fits. -/
def soundWithin (depth : Nat) : Json → Bool
  | .null => true
  | .boolean _ => true
  | .number value => value.isFinite
  | .string value => value.isWhole
  | .array items => 0 < depth && itemsSoundWithin (depth - 1) items
  | .object members => 0 < depth && membersSoundWithin (depth - 1) members

/-- `soundWithin` for every item of an array. -/
def itemsSoundWithin (depth : Nat) : List Json → Bool
  | [] => true
  | item :: items => soundWithin depth item && itemsSoundWithin depth items

/-- `soundWithin` for every member of an object, names included. -/
def membersSoundWithin (depth : Nat) : List (Text × Json) → Bool
  | [] => true
  | (name, value) :: members =>
    name.isWhole && soundWithin depth value && membersSoundWithin depth members

end

end Json
end WrapLint
