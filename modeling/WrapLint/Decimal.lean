/-!
# Decimal numbers and the range of doubles

A number written in decimal is a coefficient times a power of ten.  The formats read here
keep such a number in a double, and refuse it if it lies too far from zero for one.

**Rounding.**  A number goes to the nearest double, and a tie to the even one.  The first
magnitude that no longer rounds to a finite double is therefore the middle between the
largest double, `2^1024 - 2^971`, and `2^1024`.

**Two ways to a double.**
* In one step: the number itself is rounded.  `overflows` is the test.
* In two steps: of the digits only those are kept that fit 64 bits, then the coefficient and
  the power of ten are rounded, and so is their product.  Near the largest double this may
  decide otherwise than the first way.  `ofDigits` keeps the digits, `productOverflows` is the
  test.
-/

namespace WrapLint

/-- The number `coefficient * 10 ^ exponent`. -/
structure Decimal where
  coefficient : Nat
  exponent : Int
  deriving DecidableEq

namespace Decimal

/-- The least magnitude that rounds to infinity. -/
def overflowBound : Nat :=
  Nat.pow 2 1024 - Nat.pow 2 970

/-- Whether the number rounds to infinity.  A positive exponent above 308 decides at once,
and a negative one never divides by more than the coefficient, so no huge power is built. -/
def overflows (number : Decimal) : Bool :=
  match number.exponent with
  | .ofNat e =>
    number.coefficient != 0
      && (308 < e || overflowBound ≤ number.coefficient * Nat.pow 10 e)
  | .negSucc k =>
    overflowBound ≤ number.coefficient / Nat.pow 10 (min (k + 1) (number.coefficient.log2 + 1))

/-- The value of digits after others with this value, and the number of digits that are
dropped: the first that no longer fits 64 bits, and all after it. -/
def keepDigits (value : Nat) : List Char → Nat × Nat
  | [] => (value, 0)
  | d :: ds =>
    let longer := value * 10 + (d.toNat - '0'.toNat)
    if longer < UInt64.size then keepDigits longer ds else (value, ds.length + 1)

/-- The number that digits write, the last of them worth `10 ^ exponent`, with as many of the
digits as fit 64 bits. -/
def ofDigits (ds : List Char) (exponent : Int) : Decimal :=
  let (coefficient, dropped) := keepDigits 0 ds
  ⟨coefficient, exponent + dropped⟩

/-- The double nearest to a natural number, of two the even one. -/
def nearestDouble (n : Nat) : Nat :=
  let unit := Nat.pow 2 (n.log2 - 52)
  let below := n / unit
  let excess := 2 * (n % unit)
  if unit < excess ∨ (unit = excess ∧ below % 2 = 1) then (below + 1) * unit else below * unit

/-- Whether the product of the coefficient and the power of ten, each of them rounded, rounds
to infinity.  A coefficient that fits 64 bits needs a power above one for that, and no power
above `10 ^ 308` is finite. -/
def productOverflows (number : Decimal) : Bool :=
  match number.exponent with
  | .ofNat e =>
    number.coefficient != 0
      && (308 < e
        || overflowBound ≤ nearestDouble number.coefficient * nearestDouble (Nat.pow 10 e))
  | .negSucc _ => false

end Decimal
end WrapLint
