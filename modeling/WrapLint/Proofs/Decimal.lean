import WrapLint.Decimal
import Mathlib.Data.List.TakeWhile
import Mathlib.Tactic.Common

/-!
# Natural numbers below `2^64` as decimals

**Results.**
* `ofDigits_toDigits`: no digit of such a number is dropped.
* `productOverflows_eq_false`: such a number rounds to a finite double.
-/

namespace WrapLint
namespace Decimal

theorem le_ofDigitChars (ds : List Char) (value : Nat) :
    value ≤ Nat.ofDigitChars 10 ds value := by
  induction ds generalizing value with
  | nil => simp
  | cons d ds ih =>
      rw [Nat.ofDigitChars_cons]
      have hle := ih (10 * value + (d.toNat - '0'.toNat))
      omega

/-- Digits whose value fits 64 bits are all kept. -/
theorem keepDigits_of_lt {ds : List Char} (value : Nat)
    (h : Nat.ofDigitChars 10 ds value < UInt64.size) :
    keepDigits value ds = (Nat.ofDigitChars 10 ds value, 0) := by
  induction ds generalizing value with
  | nil => simp [keepDigits]
  | cons d ds ih =>
      rw [Nat.ofDigitChars_cons, Nat.mul_comm] at h ⊢
      have hle := le_ofDigitChars ds (value * 10 + (d.toNat - '0'.toNat))
      rw [keepDigits, if_pos (Nat.lt_of_le_of_lt hle h), ih _ h]

/-- The digits of a number that fits 64 bits give that number back. -/
theorem ofDigits_toDigits {n : Nat} (h : n < UInt64.size) (exponent : Int) :
    ofDigits (Nat.toDigits 10 n) exponent = ⟨n, exponent⟩ := by
  have hvalue : Nat.ofDigitChars 10 (Nat.toDigits 10 n) 0 = n :=
    Nat.ofDigitChars_ten_toDigits
  have hkeep := keepDigits_of_lt 0 (hvalue.symm ▸ h)
  simp [ofDigits, hkeep, hvalue]

/-- Rounding at most doubles a number, up to one. -/
theorem nearestDouble_le (n : Nat) : nearestDouble n ≤ 2 * n + 1 := by
  have hunit : Nat.pow 2 (n.log2 - 52) ≤ n + 1 := by
    rcases Nat.eq_zero_or_pos n with rfl | hpos
    · decide
    · calc 2 ^ (n.log2 - 52) ≤ 2 ^ n.log2 := Nat.pow_le_pow_right (by decide) (by omega)
        _ ≤ n := Nat.log2_self_le (by omega)
        _ ≤ n + 1 := by omega
  have hbelow := Nat.div_mul_le_self n (Nat.pow 2 (n.log2 - 52))
  unfold nearestDouble
  simp only
  split
  · rw [Nat.add_mul]
    omega
  · omega

theorem productOverflows_eq_false {n : Nat} (h : n < UInt64.size) :
    productOverflows ⟨n, 0⟩ = false := by
  have hone : nearestDouble (Nat.pow 10 0) = 1 := by decide
  have hle := nearestDouble_le n
  have hbound : 2 * UInt64.size < overflowBound := by decide +kernel
  have hlt : ¬overflowBound ≤ nearestDouble n := by omega
  have hzero : (0 : Int) = Int.ofNat 0 := rfl
  rw [hzero, productOverflows]
  simp only
  rw [hone]
  simp [hlt]

end Decimal
end WrapLint
