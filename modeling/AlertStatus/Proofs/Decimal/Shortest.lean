import AlertStatus.Decimal.Shortest
import AlertStatus.Proofs.Decimal.Rounding
import Mathlib.Data.Nat.Cast.Order.Field

/-!
# The shortest decimal stays near its number

The search for a decimal ends on a grid point of the rounding interval, or with the point below the
number on the last grid. Either way the decimal is not above the interval (`Binary64.shortest_le`)
and it is not zero (`Binary64.shortest_pos`). That is all that reading it back asks for; that no shorter
decimal would do is not shown here.
-/

set_option autoImplicit false

namespace AlertStatus

namespace Decimal

/-- The rational number that a decimal denotes. -/
def magnitude (d : Decimal) : ℚ := d.digits * 10 ^ d.exponent

end Decimal

namespace RoundingInterval

variable {i : RoundingInterval} {k : ℤ} {c : Nat}

/-! ## 1. Grid points -/

/-- The decimal lies in the interval or on an end of it. -/
def Covers (i : RoundingInterval) (d : Decimal) : Prop :=
  i.low * Nat.pow 10 (-d.exponent).toNat ≤ d.digits * (i.den * Nat.pow 10 d.exponent.toNat) ∧
    d.digits * (i.den * Nat.pow 10 d.exponent.toNat) ≤ i.high * Nat.pow 10 (-d.exponent).toNat

/-- **A hit lies in the interval.** Which of the points in it is taken plays no part here. -/
theorem covers_hit (h : i.hit? k = some c) : i.Covers ⟨c, k⟩ := by
  -- With the ends or without them, what is inside is covered.
  let inside (c : Nat) : Bool :=
    if i.closed then
      i.low * Nat.pow 10 (-k).toNat ≤ c * (i.den * Nat.pow 10 k.toNat) &&
        c * (i.den * Nat.pow 10 k.toNat) ≤ i.high * Nat.pow 10 (-k).toNat
    else
      i.low * Nat.pow 10 (-k).toNat < c * (i.den * Nat.pow 10 k.toNat) &&
        c * (i.den * Nat.pow 10 k.toNat) < i.high * Nat.pow 10 (-k).toNat
  have hcovers : ∀ c, inside c = true → i.Covers ⟨c, k⟩ := by
    intro c hc
    simp only [inside] at hc
    split at hc
    · simpa [Covers] using hc
    · simp only [Bool.and_eq_true, decide_eq_true_eq] at hc
      exact ⟨hc.1.le, hc.2.le⟩
  unfold hit? at h
  dsimp only at h
  split at h
  · rename_i hc hc'
    split at h
    · cases h
      exact hcovers _ hc
    · cases h
      exact hcovers _ hc'
  · rename_i hc _
    cases h
    exact hcovers _ hc
  · rename_i _ hc'
    cases h
    exact hcovers _ hc'
  · cases h

/-- The point of the grid below the number. -/
def below (i : RoundingInterval) (k : ℤ) : Decimal :=
  ⟨i.mid * Nat.pow 10 (-k).toNat / (i.den * Nat.pow 10 k.toNat), k⟩

/-- The search ends with a hit, or below the number on the last grid. -/
theorem search_cases (i : RoundingInterval) (n : Nat) (k : ℤ) :
    i.Covers (i.search n k) ∨ i.search n k = i.below (k - n) := by
  induction n generalizing k with
  | zero =>
    right
    rw [search, Nat.cast_zero, sub_zero, below]
  | succ n ih =>
    rw [search]
    cases hhit : i.hit? k with
    | some c => exact Or.inl (covers_hit hhit)
    | none =>
      have hlast : k - 1 - n = k - (n + 1 : Nat) := by push_cast; ring
      rw [← hlast]
      exact ih (k - 1)

/-! ## 2. Bounds -/

theorem magnitude_le {d : Decimal} {n : Nat} (hden : 0 < i.den)
    (h : d.digits * (i.den * Nat.pow 10 d.exponent.toNat) ≤ n * Nat.pow 10 (-d.exponent).toNat) :
    d.magnitude ≤ n / i.den := by
  have hden' : (0 : ℚ) < i.den := by exact_mod_cast hden
  have h' : ((d.digits * (i.den * Nat.pow 10 d.exponent.toNat) : Nat) : ℚ) ≤
      ((n * Nat.pow 10 (-d.exponent).toNat : Nat) : ℚ) := Nat.cast_le.mpr h
  rw [Nat.cast_mul, Nat.cast_mul, Nat.cast_mul, cast_natPow, cast_natPow] at h'
  rw [Decimal.magnitude, zpow_eq_div (by norm_num), mul_div_assoc',
    div_le_div_iff₀ (by positivity) hden']
  calc (d.digits : ℚ) * 10 ^ d.exponent.toNat * i.den
      = d.digits * (i.den * 10 ^ d.exponent.toNat) := by ring
    _ ≤ n * 10 ^ (-d.exponent).toNat := h'

theorem search_le (hden : 0 < i.den) (hmid : i.mid ≤ i.high) (n : Nat) (k : ℤ) :
    (i.search n k).magnitude ≤ i.high / i.den := by
  rcases i.search_cases n k with h | h
  · exact magnitude_le hden h.2
  · -- The point below the number is below the upper end.
    rw [h]
    refine magnitude_le hden ((Nat.div_mul_le_self _ _).trans ?_)
    exact Nat.mul_le_mul_right _ hmid

theorem pow_length_le {n : Nat} (hn : 0 < n) : 10 ^ ((Nat.toDigits 10 n).length - 1) ≤ n := by
  by_cases hone : (Nat.toDigits 10 n).length - 1 = 0
  · rw [hone]
    exact hn
  · by_contra hlt
    have hle := (Nat.length_toDigits_le_iff (by decide) (Nat.pos_of_ne_zero hone)).mpr
      (not_le.mp hlt)
    omega

/-- A number with many digits before the point, once that is moved, is as large as they say. -/
theorem ten_zpow_le_of_lt_length {t : Nat} (hden : 0 < i.den) (hmid : i.den ≤ i.mid * Nat.pow 10 t)
    (hk : k + t < (Nat.toDigits 10 (i.mid * Nat.pow 10 t / i.den)).length) :
    (10 : ℚ) ^ k ≤ i.mid / i.den := by
  have hn : 0 < i.mid * Nat.pow 10 t / i.den := Nat.div_pos hmid hden
  have hscaled : ((i.mid * Nat.pow 10 t / i.den : Nat) : ℚ) ≤ i.mid / i.den * 10 ^ t := by
    refine le_trans Nat.cast_div_le (le_of_eq ?_)
    rw [Nat.cast_mul, cast_natPow, Nat.cast_ofNat, mul_div_right_comm]
  generalize i.mid * Nat.pow 10 t / i.den = n at hk hn hscaled
  have hlength : (10 : ℚ) ^ (k + t) ≤ n := by
    have hk' : k + t ≤ (((Nat.toDigits 10 n).length - 1 : Nat) : ℤ) := by omega
    calc (10 : ℚ) ^ (k + t) ≤ 10 ^ (((Nat.toDigits 10 n).length - 1 : Nat) : ℤ) :=
          zpow_le_zpow_right₀ (by norm_num) hk'
      _ ≤ n := by
          rw [zpow_natCast]
          exact_mod_cast pow_length_le hn
  have hpow : (0 : ℚ) < 10 ^ t := pow_pos (by norm_num) t
  rw [zpow_add₀ (by norm_num), zpow_natCast] at hlength
  exact le_of_mul_le_mul_right (hlength.trans hscaled) hpow

theorem below_pos (hden : 0 < i.den) (h : (10 : ℚ) ^ k ≤ i.mid / i.den) : 0 < (i.below k).digits := by
  have hden' : (0 : ℚ) < i.den := by exact_mod_cast hden
  have hunit : 0 < i.den * Nat.pow 10 k.toNat := Nat.mul_pos hden (Nat.pow_pos (by decide))
  refine Nat.div_pos ?_ hunit
  rw [zpow_eq_div (by norm_num), div_le_div_iff₀ (by positivity) hden'] at h
  have h' : ((i.den * Nat.pow 10 k.toNat : Nat) : ℚ) ≤
      ((i.mid * Nat.pow 10 (-k).toNat : Nat) : ℚ) := by
    rw [Nat.cast_mul, Nat.cast_mul, cast_natPow, cast_natPow, mul_comm]
    exact h
  exact Nat.cast_le.mp h'

theorem search_pos (hden : 0 < i.den) (hlow : 0 < i.low) (hmid : i.den ≤ i.mid * Nat.pow 10 330)
    {n : Nat} (hn : 0 < n) : 0 < (i.search n i.ceiling).digits := by
  rcases i.search_cases n i.ceiling with h | h
  · have hpos : 0 < (i.search n i.ceiling).digits *
        (i.den * Nat.pow 10 (i.search n i.ceiling).exponent.toNat) :=
      lt_of_lt_of_le (Nat.mul_pos hlow (Nat.pow_pos (by decide))) h.1
    exact Nat.pos_of_mul_pos_right hpos
  · rw [h]
    refine below_pos hden (ten_zpow_le_of_lt_length hden hmid ?_)
    unfold ceiling
    omega

end RoundingInterval

/-! ## 3. Finite numbers -/

namespace Binary64

variable {x : Binary64}

theorem den_of_pos (x : Binary64) : 0 < (RoundingInterval.of x).den := Nat.two_pow_pos _

theorem low_of_pos (hx : x.significand ≠ 0) : 0 < (RoundingInterval.of x).low := by
  unfold RoundingInterval.of
  dsimp only
  refine Nat.mul_pos ?_ (Nat.two_pow_pos _)
  split <;> omega

theorem mid_of_le_high (x : Binary64) : (RoundingInterval.of x).mid ≤ (RoundingInterval.of x).high :=
  Nat.mul_le_mul_right _ (Nat.le_add_right _ _)

theorem den_of_le (hx : x.significand ≠ 0) (hfin : x.Finite) :
    (RoundingInterval.of x).den ≤ (RoundingInterval.of x).mid * Nat.pow 10 330 := by
  have hmid : 0 < (RoundingInterval.of x).mid := by
    refine Nat.mul_pos ?_ (Nat.two_pow_pos _)
    omega
  have hden : (2 - x.exponent).toNat ≤ 1076 := by
    have hmin := hfin.min_le
    unfold minExponent at hmin
    omega
  have hpow : ∀ i j k : Nat, i ≤ j → Nat.pow 2 j ≤ k → Nat.pow 2 i ≤ k := fun _ _ _ hij hjk =>
    Nat.le_trans (Nat.pow_le_pow_right (by decide) hij) hjk
  have hten := hpow (2 - x.exponent).toNat 1076 (Nat.pow 10 330) hden (by decide +kernel)
  exact Nat.le_trans hten (Nat.le_mul_of_pos_left _ hmid)

theorem shortest_pos (hx : x.significand ≠ 0) (hfin : x.Finite) : 0 < x.shortest.digits :=
  RoundingInterval.search_pos x.den_of_pos (low_of_pos hx) (den_of_le hx hfin) (by decide)

/-- **The shortest decimal is at most half a unit above its number.** A lower bound is not needed,
since a number that is read too small is still finite. -/
theorem shortest_le (x : Binary64) :
    x.shortest.magnitude ≤ (x.significand + 1 / 2) * 2 ^ x.exponent := by
  refine (RoundingInterval.search_le x.den_of_pos x.mid_of_le_high _ _).trans_eq ?_
  have hexp : x.exponent = x.exponent - 2 + 2 := by ring
  have hneg : -(x.exponent - 2) = 2 - x.exponent := by ring
  have hhalf : (2 : ℚ) ^ x.exponent = 2 ^ (x.exponent - 2).toNat / 2 ^ (2 - x.exponent).toNat * 4 := by
    conv_lhs => rw [hexp]
    rw [zpow_add₀ two_ne_zero, zpow_eq_div two_ne_zero, hneg]
    rfl
  show (((4 * x.significand + 2) * Nat.pow 2 (x.exponent - 2).toNat : Nat) : ℚ) /
    (Nat.pow 2 (2 - x.exponent).toNat : Nat) = _
  rw [hhalf, Nat.cast_mul, cast_natPow, cast_natPow]
  push_cast
  ring

end Binary64
end AlertStatus
