/-!
# Hexadecimal numbers

The value of a hexadecimal digit and of a run of them.  Both cases of the letters are taken.
-/

namespace WrapLint
namespace Hexadecimal

/-- The value of a digit. -/
def digit? (c : Char) : Option Nat :=
  if '0' ≤ c ∧ c ≤ '9' then some (c.toNat - '0'.toNat)
  else if 'a' ≤ c ∧ c ≤ 'f' then some (c.toNat - 'a'.toNat + 10)
  else if 'A' ≤ c ∧ c ≤ 'F' then some (c.toNat - 'A'.toNat + 10)
  else none

/-- The value of a run of digits, the most significant first, after digits of this value. -/
def valueFrom? (value : Nat) : List Char → Option Nat
  | [] => some value
  | c :: rest => do valueFrom? (value * 16 + (← digit? c)) rest

/-- The value of a run of digits. -/
def value? (digits : List Char) : Option Nat :=
  valueFrom? 0 digits

/-- The character whose code point the digits give, if there is one. -/
def character? (digits : List Char) : Option Char := do
  let n ← value? digits
  if n.isValidChar then some (Char.ofNat n) else none

end Hexadecimal
end WrapLint
