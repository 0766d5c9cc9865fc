import AlertStatus.Decimal.Binary64
import Mathlib.Algebra.Order.Field.Power
import Mathlib.Data.Rat.Cast.Order
import Mathlib.Tactic.FieldSimp
import Mathlib.Tactic.Linarith
import Mathlib.Tactic.NormNum
import Mathlib.Tactic.Positivity
import Mathlib.Tactic.Push
import Mathlib.Tactic.Ring

/-!
# Rounding to binary64 numbers

A binary number stands for a rational one (`Binary64.magnitude`), and so does a fraction that is
rounded. Of rounding three things are shown: whatever is smaller than `Binary64.bound` has a nearest
finite number, that number is a finite one, and from one on it differs from the fraction by no more
than the fraction's part `2 ^ -53`.
-/

set_option autoImplicit false

namespace AlertStatus

/-! ## 1. Rounding to a whole number -/

section RoundDiv

variable {n d : Nat}

theorem roundDiv_le_add_half (hd : 0 < d) : (roundDiv n d : ℚ) ≤ n / d + 1 / 2 := by
  have hd' : (0 : ℚ) < d := by exact_mod_cast hd
  have hdiv : (d : ℚ) * ↑(n / d) + ↑(n % d) = n := by exact_mod_cast Nat.div_add_mod n d
  rw [div_add_div _ _ hd'.ne' two_ne_zero, le_div_iff₀ (by positivity)]
  unfold roundDiv
  dsimp only
  split
  · rename_i h
    have hr : (d : ℚ) ≤ 2 * ↑(n % d) := by
      rcases h with h | h
      · exact_mod_cast h.le
      · exact_mod_cast h.1.le
    push_cast
    nlinarith
  · have hr : (0 : ℚ) ≤ ↑(n % d) := by positivity
    nlinarith

theorem sub_half_le_roundDiv (hd : 0 < d) : (n : ℚ) / d - 1 / 2 ≤ roundDiv n d := by
  have hd' : (0 : ℚ) < d := by exact_mod_cast hd
  have hdiv : (d : ℚ) * ↑(n / d) + ↑(n % d) = n := by exact_mod_cast Nat.div_add_mod n d
  rw [div_sub_div _ _ hd'.ne' two_ne_zero, div_le_iff₀ (by positivity)]
  unfold roundDiv
  dsimp only
  split
  · have hr : (↑(n % d) : ℚ) ≤ d := by exact_mod_cast (Nat.mod_lt n hd).le
    push_cast
    nlinarith
  · rename_i h
    have hr : 2 * (↑(n % d) : ℚ) ≤ d := by
      have := not_lt.mp (not_or.mp h).1
      exact_mod_cast this
    nlinarith

end RoundDiv

/-! ## 2. Fractions in powers of two -/

theorem cast_natPow (b k : Nat) : ((Nat.pow b k : Nat) : ℚ) = (b : ℚ) ^ k := Nat.cast_pow b k

theorem zpow_eq_div {b : ℚ} (hb : b ≠ 0) (e : ℤ) : b ^ e = b ^ e.toNat / b ^ (-e).toNat := by
  have hsplit : e = (e.toNat : ℤ) - ((-e).toNat : ℤ) := by omega
  conv_lhs => rw [hsplit]
  rw [zpow_sub₀ hb, zpow_natCast, zpow_natCast]

namespace Binary64

variable {n d : Nat} {e : ℤ} {x y : Binary64}

/-- The magnitude of a number. -/
def magnitude (x : Binary64) : ℚ := x.significand * 2 ^ x.exponent

theorem magnitude_eq_ratio (x : Binary64) : x.magnitude = x.ratio.1 / x.ratio.2 := by
  unfold magnitude ratio
  rw [zpow_eq_div two_ne_zero, Nat.cast_mul, cast_natPow, cast_natPow]
  push_cast
  ring

theorem ratio_pos (x : Binary64) : 0 < x.ratio.2 := Nat.two_pow_pos _

theorem inUnits_pos (hd : 0 < d) : 0 < (inUnits n d e).2 := Nat.mul_pos hd (Nat.two_pow_pos _)

theorem inUnits_eq (n d : Nat) (e : ℤ) :
    ((inUnits n d e).1 : ℚ) / (inUnits n d e).2 = n / d / 2 ^ e := by
  unfold inUnits
  rw [zpow_eq_div two_ne_zero, Nat.cast_mul, Nat.cast_mul, cast_natPow, cast_natPow]
  push_cast
  field_simp

theorem two_pow_log2_le (hn : 0 < n) : (2 : ℚ) ^ (n.log2 : ℤ) ≤ n := by
  rw [zpow_natCast]
  exact_mod_cast Nat.log2_self_le hn.ne'

theorem lt_two_pow_log2 (n : Nat) : (n : ℚ) < 2 ^ ((n.log2 : ℤ) + 1) := by
  have h := Nat.lt_log2_self (n := n)
  have hcast : ((n.log2 : ℤ) + 1) = ((n.log2 + 1 : Nat) : ℤ) := by push_cast; rfl
  rw [hcast, zpow_natCast]
  exact_mod_cast h

/-- The binary digits of numerator and denominator leave two candidates for the exponent. -/
theorem log2_spec (hn : 0 < n) (hd : 0 < d) :
    (2 : ℚ) ^ ((n.log2 : ℤ) - d.log2 - 1) ≤ n / d ∧ (n : ℚ) / d < 2 ^ ((n.log2 : ℤ) - d.log2 + 1) := by
  have hd' : (0 : ℚ) < d := by exact_mod_cast hd
  constructor
  · rw [le_div_iff₀ hd']
    calc (2 : ℚ) ^ ((n.log2 : ℤ) - d.log2 - 1) * d
        ≤ 2 ^ ((n.log2 : ℤ) - d.log2 - 1) * 2 ^ ((d.log2 : ℤ) + 1) := by
          gcongr
          exact (lt_two_pow_log2 d).le
      _ = 2 ^ (n.log2 : ℤ) := by
          rw [← zpow_add₀ two_ne_zero]
          congr 1
          omega
      _ ≤ n := two_pow_log2_le hn
  · rw [div_lt_iff₀ hd']
    calc (n : ℚ) < 2 ^ ((n.log2 : ℤ) + 1) := lt_two_pow_log2 n
      _ = 2 ^ ((n.log2 : ℤ) - d.log2 + 1) * 2 ^ (d.log2 : ℤ) := by
          rw [← zpow_add₀ two_ne_zero]
          congr 1
          omega
      _ ≤ 2 ^ ((n.log2 : ℤ) - d.log2 + 1) * d := by
          gcongr
          exact two_pow_log2_le hd

/-- The whole quotient tells on which side of `2 ^ 52` units a fraction lies. -/
theorem quotient_lt_iff (n : Nat) (hd : 0 < d) (e : ℤ) :
    (inUnits n d e).1 / (inUnits n d e).2 < Nat.pow 2 52 ↔ (n : ℚ) / d < 2 ^ (e + 52) := by
  have hunits : (0 : ℚ) < (inUnits n d e).2 := by exact_mod_cast inUnits_pos hd
  have hquot : (n : ℚ) / d < 2 ^ (e + 52) ↔
      ((inUnits n d e).1 : ℚ) / (inUnits n d e).2 < 2 ^ 52 := by
    rw [inUnits_eq, div_lt_iff₀ (zpow_pos two_pos e), zpow_add₀ two_ne_zero, mul_comm]
    rfl
  rw [hquot, div_lt_iff₀ hunits, Nat.div_lt_iff_lt_mul (inUnits_pos hd)]
  exact_mod_cast Iff.rfl

/-- **The exponent of a fraction** puts it below `2 ^ 53` units, and into the upper half of that range
unless it is the least exponent. Below that the numbers are subnormal and have fewer bits. -/
theorem exponentOf_spec (hn : 0 < n) (hd : 0 < d) :
    (n : ℚ) / d < 2 ^ (exponentOf n d + 53) ∧
      (minExponent < exponentOf n d → (2 : ℚ) ^ (exponentOf n d + 52) ≤ n / d) := by
  obtain ⟨hlow, hhigh⟩ := log2_spec hn hd
  let e : ℤ := (n.log2 : ℤ) - (d.log2 : ℤ) - 52
  -- The first guess is right or one too large, and the quotient tells which.
  let f : ℤ := if (inUnits n d e).1 / (inUnits n d e).2 < Nat.pow 2 52 then e - 1 else e
  have hf : (2 : ℚ) ^ (f + 52) ≤ n / d ∧ (n : ℚ) / d < 2 ^ (f + 53) := by
    show (2 : ℚ) ^ ((if _ then e - 1 else e) + 52) ≤ n / d ∧
      (n : ℚ) / d < 2 ^ ((if _ then e - 1 else e) + 53)
    split
    · rename_i h
      have h₁ : e - 1 + 52 = (n.log2 : ℤ) - d.log2 - 1 := by omega
      have h₂ : e - 1 + 53 = e + 52 := by omega
      rw [h₁, h₂]
      exact ⟨hlow, (quotient_lt_iff n hd e).mp h⟩
    · rename_i h
      have h₁ : e + 53 = (n.log2 : ℤ) - d.log2 + 1 := by omega
      rw [h₁]
      exact ⟨not_lt.mp fun hlt => h ((quotient_lt_iff n hd e).mpr hlt), hhigh⟩
  have hexp : exponentOf n d = max minExponent f := rfl
  rw [hexp]
  constructor
  · refine hf.2.trans_le ?_
    gcongr
    · norm_num
    · exact le_max_right _ _
  · intro h
    have hmax : max minExponent f = f := by omega
    rw [hmax]
    exact hf.1

/-! ## 3. Rounding -/

/-- A number that has a place among the finite ones. -/
structure Finite (x : Binary64) : Prop where
  significand_lt : x.significand < 2 ^ 53
  min_le : minExponent ≤ x.exponent
  le_max : x.exponent ≤ maxExponent

/-- Halfway from the largest finite number to what would come next. -/
def bound : ℚ := (2 ^ 53 - 1 / 2) * 2 ^ maxExponent

theorem finite_zero (negative : Bool) : (zero negative).Finite := by
  refine ⟨Nat.two_pow_pos 53, le_refl _, ?_⟩
  show minExponent ≤ maxExponent
  decide

/-- The significand of a fraction before it is made to fit 53 bits. -/
def unitsOf (n d : Nat) : Nat :=
  roundDiv (inUnits n d (exponentOf n d)).1 (inUnits n d (exponentOf n d)).2

theorem unitsOf_spec (hn : 0 < n) (hd : 0 < d) :
    unitsOf n d ≤ 2 ^ 53 ∧
      |(unitsOf n d : ℚ) * 2 ^ exponentOf n d - n / d| ≤ 2 ^ exponentOf n d / 2 := by
  have hunits : 0 < (inUnits n d (exponentOf n d)).2 := inUnits_pos hd
  have hpow : (0 : ℚ) < 2 ^ exponentOf n d := zpow_pos two_pos _
  have hle := roundDiv_le_add_half (n := (inUnits n d (exponentOf n d)).1) hunits
  have hge := sub_half_le_roundDiv (n := (inUnits n d (exponentOf n d)).1) hunits
  rw [inUnits_eq] at hle hge
  constructor
  · have hlt : (n : ℚ) / d / 2 ^ exponentOf n d < 2 ^ 53 := by
      rw [div_lt_iff₀ hpow, mul_comm]
      have h := (exponentOf_spec hn hd).1
      rw [zpow_add₀ two_ne_zero] at h
      exact h
    have hcast : (unitsOf n d : ℚ) < ((2 ^ 53 + 1 : Nat) : ℚ) := by
      rw [Nat.cast_add_one, Nat.cast_pow]
      unfold unitsOf
      push_cast
      linarith
    exact Nat.lt_succ_iff.mp (Nat.cast_lt.mp hcast)
  · have hq : (n : ℚ) / d = n / d / 2 ^ exponentOf n d * 2 ^ exponentOf n d := by
      rw [div_mul_cancel₀ _ hpow.ne']
    rw [abs_le]
    unfold unitsOf
    constructor
    · nlinarith
    · nlinarith

theorem ofRatio?_eq (hn : n ≠ 0) (d : Nat) :
    ofRatio? n d =
      let r : Nat × Int := if unitsOf n d = Nat.pow 2 53 then (Nat.pow 2 52, exponentOf n d + 1)
        else (unitsOf n d, exponentOf n d)
      if maxExponent < r.2 then none else some ⟨false, r.1, r.2⟩ := if_neg hn

/-- Rounding gives finite numbers only. -/
theorem finite_of_ofRatio? (hd : 0 < d) (h : ofRatio? n d = some y) : y.Finite := by
  by_cases hn : n = 0
  · subst hn
    cases h
    exact finite_zero false
  have hmin : minExponent ≤ exponentOf n d := le_max_left _ _
  have hunits := (unitsOf_spec (Nat.pos_of_ne_zero hn) hd).1
  rw [ofRatio?_eq hn] at h
  dsimp only at h
  by_cases hfull : unitsOf n d = Nat.pow 2 53
  · rw [if_pos hfull] at h
    split at h
    · cases h
    · rename_i hmax
      cases h
      exact ⟨(by decide : Nat.pow 2 52 < 2 ^ 53), hmin.trans (Int.le_add_one le_rfl), not_lt.mp hmax⟩
  · rw [if_neg hfull] at h
    split at h
    · cases h
    · rename_i hmax
      cases h
      exact ⟨lt_of_le_of_ne hunits hfull, hmin, not_lt.mp hmax⟩

/-- What is smaller than the bound has no exponent above the greatest one, -/
theorem exponentOf_le (hn : 0 < n) (hd : 0 < d) (hb : (n : ℚ) / d < bound) :
    exponentOf n d ≤ maxExponent := by
  by_contra hgt
  have hbig : (2 : ℚ) ^ (maxExponent + 53) ≤ n / d := by
    refine le_trans ?_ ((exponentOf_spec hn hd).2 (by unfold minExponent maxExponent at *; omega))
    exact zpow_le_zpow_right₀ one_le_two (by omega)
  have hpow : (0 : ℚ) < 2 ^ maxExponent := zpow_pos two_pos _
  have hcast : (2 : ℚ) ^ (53 : ℤ) = 2 ^ 53 := rfl
  rw [zpow_add₀ two_ne_zero, hcast] at hbig
  unfold bound at hb
  nlinarith

/-- and none either when a carry raises it. -/
theorem exponentOf_carry_le (hn : 0 < n) (hd : 0 < d) (hb : (n : ℚ) / d < bound)
    (hfull : unitsOf n d = 2 ^ 53) : exponentOf n d + 1 ≤ maxExponent := by
  have hle := exponentOf_le hn hd hb
  by_contra hgt
  have heq : exponentOf n d = maxExponent := by omega
  have herror := (unitsOf_spec hn hd).2
  have hcast : ((2 : Nat) : ℚ) ^ 53 = 2 ^ 53 := rfl
  rw [hfull, heq, Nat.cast_pow, hcast, abs_le] at herror
  unfold bound at hb
  linarith [herror.2]

/-- From one on the significand has all its bits, and half a unit is a small part of the fraction. -/
theorem half_unit_le (hn : 0 < n) (hd : 0 < d) (hone : 1 ≤ (n : ℚ) / d) :
    (2 : ℚ) ^ exponentOf n d / 2 ≤ n / d / 2 ^ 53 := by
  obtain ⟨hlt, hnormal⟩ := exponentOf_spec hn hd
  have hgt : minExponent < exponentOf n d := by
    by_contra hle
    have heq : exponentOf n d + 53 ≤ 0 := by unfold minExponent at *; omega
    have hsmall : (2 : ℚ) ^ (exponentOf n d + 53) ≤ 1 := zpow_le_one_of_nonpos₀ one_le_two heq
    linarith
  have hge := hnormal hgt
  have hcast : (2 : ℚ) ^ (52 : ℤ) = 2 ^ 52 := rfl
  rw [zpow_add₀ two_ne_zero, hcast] at hge
  rw [div_le_div_iff₀ two_pos (by positivity)]
  linarith

/-- **What is smaller than the bound has a nearest finite number.** From one on that number is as good
as the fraction up to the part `2 ^ -53` of it. Below one this fails for the subnormal numbers, and
nothing here needs it. -/
theorem exists_ofRatio? (hd : 0 < d) (hb : (n : ℚ) / d < bound) :
    ∃ y, ofRatio? n d = some y ∧ y.Finite ∧
      (1 ≤ (n : ℚ) / d → |y.magnitude - n / d| ≤ n / d / 2 ^ 53) := by
  by_cases hn : n = 0
  · subst hn
    refine ⟨zero false, rfl, finite_zero false, fun h => ?_⟩
    norm_num at h
  have hpos : 0 < n := Nat.pos_of_ne_zero hn
  obtain ⟨y, hy, hvalue⟩ : ∃ y : Binary64, ofRatio? n d = some y ∧
      y.magnitude = unitsOf n d * 2 ^ exponentOf n d := by
    rw [ofRatio?_eq hn]
    dsimp only
    by_cases hfull : unitsOf n d = Nat.pow 2 53
    · rw [if_pos hfull, if_neg (not_lt.mpr (exponentOf_carry_le hpos hd hb hfull))]
      refine ⟨_, rfl, ?_⟩
      show ((Nat.pow 2 52 : Nat) : ℚ) * 2 ^ (exponentOf n d + 1) = _
      rw [hfull, cast_natPow, cast_natPow, zpow_add_one₀ two_ne_zero]
      push_cast
      ring
    · rw [if_neg hfull, if_neg (not_lt.mpr (exponentOf_le hpos hd hb))]
      exact ⟨_, rfl, rfl⟩
  refine ⟨y, hy, finite_of_ofRatio? hd hy, fun hone => ?_⟩
  rw [hvalue]
  exact (unitsOf_spec hpos hd).2.trans (half_unit_le hpos hd hone)

/-! ## 4. Products and quotients -/

theorem magnitude_nonneg (x : Binary64) : 0 ≤ x.magnitude :=
  mul_nonneg (Nat.cast_nonneg _) (zpow_pos two_pos _).le

/-- A finite number is smaller than `2 ^ 1024`. -/
theorem Finite.magnitude_lt (h : x.Finite) : x.magnitude < 2 ^ 53 * 2 ^ maxExponent := by
  have hsig : (x.significand : ℚ) < 2 ^ 53 := by exact_mod_cast h.significand_lt
  have hpow : (2 : ℚ) ^ x.exponent ≤ 2 ^ maxExponent := zpow_le_zpow_right₀ one_le_two h.le_max
  have hpos : (0 : ℚ) < 2 ^ x.exponent := zpow_pos two_pos _
  unfold magnitude
  nlinarith

theorem finite_of_mul? {z : Binary64} (h : x.mul? y = some z) : z.Finite :=
  finite_of_ofRatio? (Nat.mul_pos x.ratio_pos y.ratio_pos) h

/-- A product below the bound is finite. -/
theorem exists_mul? (h : x.magnitude * y.magnitude < bound) : ∃ z, x.mul? y = some z ∧ z.Finite := by
  rw [magnitude_eq_ratio, magnitude_eq_ratio, div_mul_div_comm] at h
  obtain ⟨z, hz, hfin, -⟩ := exists_ofRatio? (n := x.ratio.1 * y.ratio.1)
    (Nat.mul_pos x.ratio_pos y.ratio_pos) (by push_cast; exact h)
  exact ⟨z, hz, hfin⟩

/-- A finite number divided by two or more is finite. -/
theorem exists_div? (hx : x.Finite) (hy : 2 ≤ y.magnitude) : ∃ z, x.div? y = some z ∧ z.Finite := by
  have hratio : y.magnitude = y.ratio.1 / y.ratio.2 := y.magnitude_eq_ratio
  have hnum : 0 < y.ratio.1 := by
    refine Nat.pos_of_ne_zero fun h => ?_
    rw [h, Nat.cast_zero, zero_div] at hratio
    linarith
  have hquot : x.magnitude / y.magnitude < bound := by
    have hlt := hx.magnitude_lt
    have hpow : (0 : ℚ) < 2 ^ maxExponent := zpow_pos two_pos _
    rw [div_lt_iff₀ (by linarith)]
    unfold bound
    nlinarith
  rw [hratio, x.magnitude_eq_ratio, div_div_div_eq] at hquot
  obtain ⟨z, hz, hfin, -⟩ := exists_ofRatio? (n := x.ratio.1 * y.ratio.2)
    (Nat.mul_pos x.ratio_pos hnum) (by push_cast; exact hquot)
  exact ⟨z, hz, hfin⟩

end Binary64
end AlertStatus
