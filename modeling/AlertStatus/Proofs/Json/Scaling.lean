import AlertStatus.Proofs.Decimal.Rounding
import AlertStatus.Proofs.Json.Numeral

/-!
# What a numeral with a fraction or an exponent denotes

Such a numeral denotes the binary number that comes out when its digits, taken as a whole number, are
multiplied or divided by a power of ten, with a rounding after each operation. Division always
succeeds. Multiplication may leave the finite numbers, and the two roundings before it may add to
that; `exists_scale?` leaves room for both of them.
-/

set_option autoImplicit false

namespace AlertStatus
namespace Numeral

open Binary64

variable {k s : Nat} {e : ℤ} {x : Binary64}

/-! ## 1. Powers of ten -/

/-- Powers that are too large to be worked out as rationals are compared as natural numbers. -/
theorem mul_pow_lt_mul_pow {a b c d i j : Nat} (h : a * Nat.pow c i < b * Nat.pow d j) :
    (a : ℚ) * (c : ℚ) ^ i < b * (d : ℚ) ^ j := by
  have h' : ((a * Nat.pow c i : Nat) : ℚ) < ((b * Nat.pow d j : Nat) : ℚ) := Nat.cast_lt.mpr h
  rwa [Nat.cast_mul, Nat.cast_mul, cast_natPow, cast_natPow] at h'

theorem ten_pow_lt_bound (hk : k ≤ 308) : (10 : ℚ) ^ k < bound := by
  have hlarge := mul_pow_lt_mul_pow (a := 2) (b := 18014398509481983) (c := 10) (d := 2) (i := 308)
    (j := 971) (by decide +kernel)
  have hpow : (2 : ℚ) ^ maxExponent = 2 ^ 971 := rfl
  have hle : (10 : ℚ) ^ k ≤ 10 ^ 308 := pow_le_pow_right₀ (by norm_num) hk
  unfold bound
  rw [hpow]
  simp only [Nat.cast_ofNat] at hlarge
  generalize (10 : ℚ) ^ 308 = b at hlarge hle
  generalize (2 : ℚ) ^ 971 = a at hlarge ⊢
  linarith

theorem bound_lt_ten_pow : bound < 10 ^ 309 := by
  have hlarge := mul_pow_lt_mul_pow (a := 18014398509481983) (b := 2) (c := 2) (d := 10) (i := 971)
    (j := 309) (by decide +kernel)
  have hpow : (2 : ℚ) ^ maxExponent = 2 ^ 971 := rfl
  unfold bound
  rw [hpow]
  simp only [Nat.cast_ofNat] at hlarge
  generalize (10 : ℚ) ^ 309 = b at hlarge ⊢
  generalize (2 : ℚ) ^ 971 = a at hlarge ⊢
  linarith

/-- The powers of ten that a double holds are correct up to the part `2 ^ -53`. -/
theorem exists_powerOfTen? (hk : k ≤ 308) :
    ∃ p, powerOfTen? k = some p ∧ |p.magnitude - 10 ^ k| ≤ 10 ^ k / 2 ^ 53 := by
  have hratio : ((Nat.pow 10 k : Nat) : ℚ) / (1 : Nat) = 10 ^ k := by
    rw [cast_natPow, Nat.cast_one, div_one]
    rfl
  obtain ⟨p, hp, -, hrel⟩ := exists_ofRatio? (n := Nat.pow 10 k) (d := 1) Nat.one_pos
    (by rw [hratio]; exact ten_pow_lt_bound hk)
  rw [hratio] at hrel
  exact ⟨p, hp, hrel (one_le_pow₀ (by norm_num))⟩

theorem exists_powerOfTen?_of_pos (hk : k ≤ 308) (hpos : 0 < k) :
    ∃ p, powerOfTen? k = some p ∧ 2 ≤ p.magnitude := by
  obtain ⟨p, hp, hrel⟩ := exists_powerOfTen? hk
  refine ⟨p, hp, ?_⟩
  have hten : (10 : ℚ) ≤ 10 ^ k := le_self_pow₀ (by norm_num) hpos.ne'
  have hlow := (abs_le.mp hrel).1
  have hsmall : (10 : ℚ) ^ k / 2 ^ 53 ≤ 10 ^ k / 2 := by
    gcongr
    norm_num
  linarith

/-! ## 2. Scaling -/

theorem exists_divideDown (hx : x.Finite) (n : Nat) : ∃ y, divideDown n x = some y ∧ y.Finite := by
  induction n generalizing x with
  | zero => exact ⟨x, rfl, hx⟩
  | succ n ih =>
    rw [divideDown]
    split
    · exact ⟨x, rfl, hx⟩
    · obtain ⟨p, hp, hlow⟩ := exists_powerOfTen?_of_pos (le_refl 308) (by decide)
      obtain ⟨y, hy, hfin⟩ := exists_div? hx hlow
      rw [hp, Option.bind_eq_bind, Option.bind_some, hy, Option.bind_some]
      exact ih hfin

/-- Whole numbers of 64 bits are read up to the part `2 ^ -53`. -/
theorem exists_ofWhole (hs : s ≤ maxSignificand) :
    ∃ x, ofRatio? s 1 = some x ∧ x.Finite ∧ x.magnitude ≤ s * (1 + 1 / 2 ^ 53) := by
  have hratio : (s : ℚ) / (1 : Nat) = s := by rw [Nat.cast_one, div_one]
  have hs' : (s : ℚ) ≤ 10 ^ 20 := by
    have h : s ≤ 10 ^ 20 := hs.trans (by decide)
    exact_mod_cast h
  have hbound : (s : ℚ) / (1 : Nat) < bound := by
    rw [hratio]
    exact hs'.trans_lt (ten_pow_lt_bound (by decide))
  obtain ⟨x, hx, hfin, hrel⟩ := exists_ofRatio? Nat.one_pos hbound
  refine ⟨x, hx, hfin, ?_⟩
  by_cases hzero : s = 0
  · subst hzero
    cases hx
    show ((0 : Nat) : ℚ) * _ ≤ _
    simp
  · have hone : (1 : ℚ) ≤ s := by exact_mod_cast Nat.pos_of_ne_zero hzero
    rw [hratio] at hrel
    have hhigh := (abs_le.mp (hrel hone)).2
    linarith

/-- **A numeral that is divided denotes a number.** No room is asked for, since a quotient that gets
too small is rounded to zero. -/
theorem exists_scale?_of_neg (hs : s ≤ maxSignificand) (he : e < 0) :
    ∃ y, scale? s e = some y ∧ y.Finite := by
  obtain ⟨x, hx, hfin, -⟩ := exists_ofWhole hs
  unfold scale?
  rw [hx, Option.bind_eq_bind, Option.bind_some]
  split
  · exact ⟨x, rfl, hfin⟩
  rw [if_neg (by omega : ¬ 308 < e), if_neg (not_le.mpr he)]
  obtain ⟨y, hy, hyfin⟩ := exists_divideDown hfin ((e.natAbs - 1) / 308)
  obtain ⟨p, hp, hlow⟩ := exists_powerOfTen?_of_pos (k := e.natAbs - (e.natAbs - 1) / 308 * 308)
    (by omega) (by omega)
  obtain ⟨z, hz, hzfin⟩ := exists_div? hyfin hlow
  refine ⟨z, ?_, hzfin⟩
  dsimp only
  rw [hy, Option.bind_some, hp, Option.bind_some, hz]

/-- **A numeral that is multiplied denotes a number** as long as there is room for the roundings
(`hroom`): the digits and the power of ten are rounded before they are multiplied, each up to the part
`2 ^ -53`. -/
theorem exists_scale?_of_nonneg (hs : s ≤ maxSignificand) (he : 0 ≤ e)
    (hroom : (s : ℚ) * 10 ^ e.toNat * (1 + 1 / 2 ^ 53) ^ 2 < bound) :
    ∃ y, scale? s e = some y ∧ y.Finite := by
  obtain ⟨x, hx, hfin, hxle⟩ := exists_ofWhole hs
  unfold scale?
  rw [hx, Option.bind_eq_bind, Option.bind_some]
  split
  · exact ⟨x, rfl, hfin⟩
  rename_i hzero
  have hlimit : e ≤ 308 := by
    have hone : (1 : ℚ) ≤ s := by
      have hne : s ≠ 0 := by
        rintro rfl
        cases hx
        exact hzero rfl
      exact_mod_cast Nat.pos_of_ne_zero hne
    have hpow : (10 : ℚ) ^ e.toNat < 10 ^ 309 := by
      refine lt_of_le_of_lt ?_ (hroom.trans bound_lt_ten_pow)
      have hroundings : (1 : ℚ) ≤ (1 + 1 / 2 ^ 53) ^ 2 := one_le_pow₀ (by norm_num)
      calc (10 : ℚ) ^ e.toNat = 1 * 10 ^ e.toNat * 1 := by ring
        _ ≤ s * 10 ^ e.toNat * (1 + 1 / 2 ^ 53) ^ 2 := by gcongr
    have := (pow_lt_pow_iff_right₀ (by norm_num)).mp hpow
    omega
  rw [if_neg (not_lt.mpr hlimit)]
  obtain ⟨p, hp, hrel⟩ := exists_powerOfTen? (k := e.toNat) (by omega)
  have hple : p.magnitude ≤ 10 ^ e.toNat * (1 + 1 / 2 ^ 53) := by
    have hhigh := (abs_le.mp hrel).2
    linarith
  have hprod : x.magnitude * p.magnitude < bound := by
    refine lt_of_le_of_lt ?_ hroom
    calc x.magnitude * p.magnitude
        ≤ (s * (1 + 1 / 2 ^ 53)) * (10 ^ e.toNat * (1 + 1 / 2 ^ 53)) := by
          refine mul_le_mul hxle hple p.magnitude_nonneg ?_
          positivity
      _ = s * 10 ^ e.toNat * (1 + 1 / 2 ^ 53) ^ 2 := by ring
  obtain ⟨z, hz, hzfin⟩ := exists_mul? hprod
  refine ⟨z, ?_, hzfin⟩
  rw [hp, Option.bind_some, hz]

/-- Whatever is scaled, the result is finite. -/
theorem finite_of_scale? {y : Binary64} (hs : s ≤ maxSignificand) (h : scale? s e = some y) :
    y.Finite := by
  by_cases hneg : e < 0
  · obtain ⟨z, hz, hfin⟩ := exists_scale?_of_neg hs hneg
    rw [hz] at h
    cases h
    exact hfin
  obtain ⟨x, hx, hfin, -⟩ := exists_ofWhole hs
  unfold scale? at h
  rw [hx, Option.bind_eq_bind, Option.bind_some] at h
  split at h
  · cases h
    exact hfin
  split at h
  · cases h
  rw [if_pos (not_lt.mp hneg), Option.bind_eq_some_iff] at h
  obtain ⟨p, -, hmul⟩ := h
  exact finite_of_mul? hmul

/-! ## 3. Values -/

/-- The rational number that a numeral spells, without its sign. -/
def magnitude (n : Numeral) : ℚ :=
  ofDigits (n.whole ++ n.fraction) * 10 ^ (n.exponentValue - n.fraction.length)

/-- **A numeral with a fraction or an exponent denotes a finite number**, if there is room for the
roundings. The digits before the point are few enough here to be gathered (`hlength`), as those of
every written number are. -/
theorem Legal.exists_value {n : Numeral} (h : n.Legal) (hlength : n.whole.length ≤ 19)
    (hfloat : n.fraction ≠ [] ∨ n.exponent ≠ none)
    (hroom : n.magnitude * (1 + 1 / 2 ^ 53) ^ 2 < bound) :
    ∃ y : Binary64, n.value = some (.float (y.withSign n.negative)) ∧ y.Finite := by
  have hfits : ofDigits n.whole ≤ maxSignificand := by
    have hlt := foldl_lt h.whole_lt 0
    have hpow : 10 ^ n.whole.length ≤ 10 ^ 19 := Nat.pow_le_pow_right (by decide) hlength
    unfold maxSignificand ofDigits
    omega
  -- The whole part is gathered to its end; of the fraction some digits may be left over.
  have hgather : gather 0 n.whole = (ofDigits n.whole, 0) := gather_of_fits hfits
  obtain ⟨hmax, hleft, hle⟩ := gather_le n.fraction hfits
  generalize hg : gather (ofDigits n.whole) n.fraction = g at hmax hleft hle
  obtain ⟨s, ignored⟩ := g
  dsimp only at hmax hleft hle
  let e : ℤ := (0 : Nat) - ((n.fraction.length - ignored : Nat) : ℤ) + n.exponentValue
  have hscale : ∃ y, scale? s e = some y ∧ y.Finite := by
    by_cases hneg : e < 0
    · exact exists_scale?_of_neg hmax hneg
    · -- The digits left over only make the gathered number smaller.
      refine exists_scale?_of_nonneg hmax (not_lt.mp hneg) (lt_of_le_of_lt ?_ hroom)
      have hexp : (e.toNat : ℤ) = ignored + (n.exponentValue - n.fraction.length) := by
        have : (e.toNat : ℤ) = e := Int.toNat_of_nonneg (not_lt.mp hneg)
        omega
      have hsplit : (10 : ℚ) ^ e.toNat = 10 ^ ignored * 10 ^ (n.exponentValue - n.fraction.length) := by
        rw [← zpow_natCast, hexp, zpow_add₀ (by norm_num), zpow_natCast]
      have hdigits : (s : ℚ) * 10 ^ ignored ≤ ofDigits (n.whole ++ n.fraction) := by
        have hfold : ofDigits (n.whole ++ n.fraction) =
            n.fraction.foldl (fun n d => n * 10 + d) (ofDigits n.whole) := List.foldl_append
        rw [hfold]
        exact_mod_cast hle
      unfold magnitude
      rw [hsplit, ← mul_assoc]
      gcongr
  obtain ⟨y, hy, hfin⟩ := hscale
  refine ⟨y, ?_, hfin⟩
  rw [value, hgather]
  dsimp only
  rw [if_neg, hg]
  · show (scale? s e).map _ = _
    rw [hy]
    rfl
  · rintro ⟨-, hfraction, hexponent, -⟩
    rcases hfloat with hf | he
    · exact hf hfraction
    · exact he hexponent

end Numeral
end AlertStatus
