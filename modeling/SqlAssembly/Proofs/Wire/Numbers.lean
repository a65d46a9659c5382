import Mathlib.Algebra.Order.Field.Basic
import Mathlib.Data.Rat.Cast.Order
import Mathlib.Tactic.FieldSimp
import Mathlib.Tactic.IntervalCases
import Mathlib.Tactic.Linarith
import Mathlib.Tactic.NormNum
import SqlAssembly.Proofs.Wire.Bytes

/-!
# Integers and doubles of one word

A word of sixty-four bits is an integer in two's complement, and it is a double. Only the word zero
is the same number in both ways (`Binary64.toRat?_eq_bmod_iff`): so an integer that is taken for a
double, or a double for an integer, is another number.
-/

namespace SqlAssembly

/-- The number that a value stands for, if it is finite. -/
def BinaryValue.toRat? : BinaryValue → Option ℚ
  | finite negative mantissa exponent =>
    some ((if negative then -1 else 1) * mantissa * 2 ^ exponent)
  | infinity _ | nan _ _ => none

/-- The number that a double stands for, if it is finite. -/
def Binary64.toRat? (x : Binary64) : Option ℚ := x.value.toRat?

/-! ### The fields of a double -/

namespace Binary64

/-- The mantissa of a finite double with the given exponent and fraction fields. -/
def mantissa (biased fraction : Nat) : Nat := if biased = 0 then fraction else 2 ^ 52 + fraction

theorem value_eq (x : Binary64) :
    x.value =
      if x.bits.toNat / 2 ^ 52 % 2048 = 2047 then
        if x.bits.toNat % 2 ^ 52 = 0 then .infinity (x.bits.toNat / 2 ^ 63 % 2 == 1)
        else .nan (x.bits.toNat / 2 ^ 63 % 2 == 1) (x.bits.toNat % 2 ^ 52)
      else .finite (x.bits.toNat / 2 ^ 63 % 2 == 1)
        (mantissa (x.bits.toNat / 2 ^ 52 % 2048) (x.bits.toNat % 2 ^ 52))
        (max ((x.bits.toNat / 2 ^ 52 % 2048 : Nat) : Int) 1 - 1075) := by
  have hhidden : BinaryFormat.hiddenBit .binary64 = 2 ^ 52 := rfl
  have htop : BinaryFormat.topExponent .binary64 = 2047 := rfl
  have hmin : BinaryFormat.minExponent .binary64 = -1074 := rfl
  have hsign : BinaryFormat.signBit .binary64 = 2 ^ 63 := rfl
  simp only [value, BinaryFormat.decode, hhidden, htop, hmin, hsign, mantissa]
  split
  · rfl
  · split
    · simp_all
    · congr 1
      omega

end Binary64

/-! ### Words that are the same number in both ways -/

/-- A number scaled by a power of two, without fractions. -/
theorem mul_pow_of_mul_zpow {a c m n : Nat} (h : (a : ℚ) * 2 ^ ((n : Int) - m) = c) :
    (∀ k, n = m + k → a * 2 ^ k = c) ∧ ∀ k, m = n + k → a = c * 2 ^ k := by
  constructor
  · rintro k rfl
    rw [Nat.cast_add, add_sub_cancel_left, zpow_natCast] at h
    exact_mod_cast h
  · rintro k rfl
    rw [Nat.cast_add, sub_add_cancel_left, zpow_neg, zpow_natCast, ← div_eq_mul_inv,
      div_eq_iff (by positivity)] at h
    exact_mod_cast h

theorem add_le_two_pow {k : Nat} (h : 11 ≤ k) : k + 1077 ≤ 2 ^ k := by
  induction k, h using Nat.le_induction with
  | base => norm_num
  | succ k _ ih =>
    rw [pow_succ]
    omega

theorem two_mul_le_mul_two_pow (c : Nat) {k : Nat} (h : 0 < k) : 2 * c ≤ c * 2 ^ k := by
  rw [mul_comm]
  exact Nat.mul_le_mul_left c (Nat.le_self_pow h.ne' 2)

/-- No word with the sign bit unset and a positive exponent field is the same number in both ways:
only the field 1085 brings the two near enough, and then `1023 * f = 61 * 2 ^ 52`. -/
theorem mul_zpow_ne_of_pos {f b : Nat} (hf : f < 2 ^ 52) (hb : 0 < b) :
    ((2 ^ 52 + f : Nat) : ℚ) * 2 ^ ((b : Int) - (1075 : Nat)) ≠ (b * 2 ^ 52 + f : Nat) := by
  intro h
  obtain ⟨hup, hdown⟩ := mul_pow_of_mul_zpow h
  rcases le_or_gt 1075 b with hle | hlt
  · obtain ⟨k, rfl⟩ := Nat.exists_eq_add_of_le hle
    have h := hup k rfl
    rcases lt_or_ge k 11 with hk | hk
    · interval_cases k <;> omega
    · have hhidden := Nat.mul_le_mul_left (2 ^ 52) (add_le_two_pow hk)
      have hfraction := Nat.le_mul_of_pos_right f (Nat.two_pow_pos k)
      rw [Nat.add_mul] at h
      omega
  · obtain ⟨k, hk⟩ := Nat.exists_eq_add_of_le hlt.le
    have h := hdown k hk
    have hscaled := two_mul_le_mul_two_pow (b * 2 ^ 52 + f) (k := k) (by omega)
    omega

/-- No word with the sign bit set and a positive exponent field is the same number in both ways:
only the field 1084 brings the two near enough, and then `513 * f = 452 * 2 ^ 52`. -/
theorem mul_zpow_ne_of_neg {f b c : Nat} (hf : f < 2 ^ 52) (hb : 0 < b) (hb' : b < 2047)
    (hc : c + b * 2 ^ 52 + f = 2 ^ 63) :
    ((2 ^ 52 + f : Nat) : ℚ) * 2 ^ ((b : Int) - (1075 : Nat)) ≠ c := by
  intro h
  obtain ⟨hup, hdown⟩ := mul_pow_of_mul_zpow h
  rcases le_or_gt 1075 b with hle | hlt
  · obtain ⟨k, rfl⟩ := Nat.exists_eq_add_of_le hle
    have h := hup k rfl
    rcases lt_or_ge k 10 with hk | hk
    · interval_cases k <;> omega
    · have hpow : 2 ^ 10 ≤ 2 ^ k := Nat.pow_le_pow_right (by norm_num) hk
      have hscaled := Nat.mul_le_mul_left (2 ^ 52 + f) hpow
      omega
  · obtain ⟨k, hk⟩ := Nat.exists_eq_add_of_le hlt.le
    have h := hdown k hk
    have hscaled := two_mul_le_mul_two_pow c (k := k) (by omega)
    omega

/-- Where the exponent field is zero, the double is too small to be a positive integer. -/
theorem mul_zpow_ne_of_subnormal {f c : Nat} (hf : f ≤ c) (hc : 0 < c) :
    (f : ℚ) * 2 ^ (((1 : Nat) : Int) - (1075 : Nat)) ≠ c := by
  intro h
  obtain ⟨k, hk⟩ : ∃ k, 1075 = 1 + k := ⟨1074, rfl⟩
  have h := (mul_pow_of_mul_zpow h).2 k hk
  have hscaled := two_mul_le_mul_two_pow c (k := k) (by omega)
  omega

namespace Binary64

/-- The integer of a word that is not zero is not the number that its fields give. -/
theorem mantissa_mul_zpow_ne {negative : Bool} {b f : Nat} (hf : f < 2 ^ 52) (hb : b < 2047)
    (hword : negative = true ∨ b * 2 ^ 52 + f ≠ 0) :
    (if negative then -1 else 1) * (mantissa b f : ℚ) * 2 ^ (max (b : Int) 1 - 1075)
      ≠ ((b * 2 ^ 52 + f : Nat) : ℚ) - (if negative then 2 ^ 63 else 0) := by
  intro h
  cases negative with
  | false =>
    simp only [Bool.false_eq_true, if_false, one_mul, sub_zero, false_or] at h hword
    rcases Nat.eq_zero_or_pos b with rfl | hpos
    · refine mul_zpow_ne_of_subnormal (le_refl f) (by omega) ?_
      simpa [mantissa] using h
    · refine mul_zpow_ne_of_pos hf hpos ?_
      rw [mantissa, if_neg hpos.ne', max_eq_left (by exact_mod_cast hpos)] at h
      exact h
  | true =>
    have hc : (b * 2 ^ 52 + f : Nat) ≤ 2 ^ 63 := by omega
    obtain ⟨c, hc⟩ := Nat.exists_eq_add_of_le hc
    have hscaled : (mantissa b f : ℚ) * 2 ^ (max (b : Int) 1 - 1075) = c := by
      have hc : (2 ^ 63 : ℚ) = (b * 2 ^ 52 + f : Nat) + c := by exact_mod_cast hc
      rw [if_pos rfl, if_pos rfl, hc] at h
      linarith
    rcases Nat.eq_zero_or_pos b with rfl | hpos
    · refine mul_zpow_ne_of_subnormal (f := f) (c := c) (by omega) (by omega) ?_
      simpa [mantissa] using hscaled
    · refine mul_zpow_ne_of_neg hf hpos hb (c := c) (by omega) ?_
      rw [mantissa, if_neg hpos.ne', max_eq_left (by exact_mod_cast hpos)] at hscaled
      exact hscaled

/-- The integer of a word, by its sign bit and its other fields. -/
theorem bmod_eq {n : Nat} (h : n < 2 ^ 64) :
    (n : Int).bmod (256 ^ 8) = (n / 2 ^ 52 % 2048 * 2 ^ 52 + n % 2 ^ 52 : Nat)
      - (if n / 2 ^ 63 % 2 == 1 then 2 ^ 63 else 0) := by
  rw [Int.bmod_def]
  norm_num
  split <;> split <;> omega

/-- A double is the same number as the integer of the same word exactly if the word is zero. -/
theorem toRat?_eq_bmod_iff (x : Binary64) :
    x.toRat? = some (((x.bits.toNat : Int).bmod (256 ^ 8) : Int) : ℚ) ↔ x.bits = 0 := by
  have hlt : x.bits.toNat < 2 ^ 64 := x.bits.toNat_lt
  constructor
  · intro h
    by_contra hne
    have hne : x.bits.toNat ≠ 0 := fun hzero => hne (UInt64.toNat_inj.1 hzero)
    rw [bmod_eq hlt, toRat?, value_eq] at h
    split at h
    · split at h <;> cases h
    · rename_i htop
      refine mantissa_mul_zpow_ne (Nat.mod_lt x.bits.toNat (by norm_num))
        (b := x.bits.toNat / 2 ^ 52 % 2048) (by omega) ?_ ((Option.some.inj h).trans ?_)
      · rw [beq_iff_eq]
        omega
      · simp only [Int.cast_sub, Int.cast_natCast, Int.cast_ite, Int.cast_pow, Int.cast_ofNat,
          Int.cast_zero]
  · intro h
    obtain ⟨bits⟩ := x
    obtain rfl : bits = 0 := h
    simp [toRat?, value_eq, BinaryValue.toRat?, mantissa]

end Binary64

end SqlAssembly
