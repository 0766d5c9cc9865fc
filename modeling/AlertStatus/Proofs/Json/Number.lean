import AlertStatus.Proofs.Decimal.Shortest
import AlertStatus.Proofs.Json.Scaling

/-!
# Numbers are read back

Each number is written as the spelling of a numeral (`Number.write_eq`), and the numeral denotes a
number again. For a whole number that is the number itself. A binary number comes back as a binary
number which may be another one, since the reader rounds once for each power of ten; but it is finite,
so writing and reading can go on (`Number.Sound.value_numeral`).

The largest two binary numbers leave no room for the roundings of the reader. They are read back all
the same, which is found by doing it.
-/

set_option autoImplicit false

namespace AlertStatus

/-! ## 1. Decimals -/

namespace Decimal

variable {d : Decimal} {negative : Bool}

/-- The numeral that a decimal is written as. -/
def numeral (negative : Bool) (d : Decimal) : Numeral :=
  let ds := digitValues d.digits
  let point : Int := (ds.length : Int) + d.exponent
  if 0 ≤ d.exponent ∧ point ≤ 16 then
    ⟨negative, ds ++ List.replicate d.exponent.toNat 0, [0], none⟩
  else if 0 < point ∧ point ≤ 16 then
    ⟨negative, ds.take point.toNat, ds.drop point.toNat, none⟩
  else if -5 < point ∧ point ≤ 0 then
    ⟨negative, [0], List.replicate (-point).toNat 0 ++ ds, none⟩
  else
    ⟨negative, ds.take 1, ds.drop 1, some (decide (point - 1 < 0), digitValues (point - 1).natAbs)⟩

theorem spellFraction_of_ne_nil {ds : List Nat} (h : ds ≠ []) :
    Numeral.spellFraction ds = '.' :: ds.map Nat.digitChar := by
  cases ds with
  | nil => exact absurd rfl h
  | cons d ds => rfl

theorem spellExponent_of_int (i : Int) :
    Numeral.spellExponent (some (decide (i < 0), digitValues i.natAbs)) = 'e' :: Number.writeInt i := by
  rw [Numeral.spellExponent, Number.writeInt, (spells_digitValues i.natAbs).chars]
  by_cases h : i < 0
  · rw [if_pos h, if_pos (decide_eq_true h)]
    rfl
  · rw [if_neg h, if_neg (by simpa using h)]
    rfl

/-- **A decimal is written as its numeral is spelled**, in each of the four ways to write it: as a
whole number, with a point inside its digits or before them, and with an exponent. -/
theorem writeDecimal_eq (negative : Bool) (d : Decimal) :
    Number.writeDecimal d = (d.numeral negative).spell := by
  obtain ⟨hchars, -, ⟨first, rest, hds, -⟩, -⟩ := spells_digitValues d.digits
  have hlength : (Number.digits d.digits).length = (digitValues d.digits).length := by
    rw [hchars, List.length_map]
  have hne : digitValues d.digits ≠ [] := by
    rw [hds]
    exact List.cons_ne_nil first rest
  unfold Number.writeDecimal numeral
  dsimp only
  rw [hlength, hchars]
  split
  · show _ = (digitValues d.digits ++ List.replicate d.exponent.toNat 0).map Nat.digitChar ++ ['.', '0']
    rw [List.map_append, List.map_replicate]
    rfl
  rename_i hwhole
  split
  · -- The point stands among the digits, and at least one of them follows it.
    rename_i hpoint
    have hdrop : (digitValues d.digits).drop
        (((digitValues d.digits).length : Int) + d.exponent).toNat ≠ [] := by
      rw [ne_eq, List.drop_eq_nil_iff]
      omega
    rw [Numeral.spell, spellFraction_of_ne_nil hdrop, List.map_take, List.map_drop]
    exact congrArg _ (List.append_nil _).symm
  split
  · rw [Numeral.spell, spellFraction_of_ne_nil (List.append_ne_nil_of_right_ne_nil _ hne),
      List.map_append, List.map_replicate]
    exact (List.append_nil _).symm
  · -- One digit, then the others if there are any: no point is written before nothing.
    rw [Numeral.spell, spellExponent_of_int, List.map_take, List.append_assoc]
    congr 2
    rw [hds, List.map_cons, List.length_cons]
    cases rest <;> rfl

theorem numeral_negative (negative : Bool) (d : Decimal) : (d.numeral negative).negative = negative := by
  unfold numeral
  dsimp only
  split
  · rfl
  split
  · rfl
  split <;> rfl

/-- A decimal that is written as such: it is zero, or it has a first digit. A zero with an exponent
would be written with one, and no shortest decimal is like that. -/
def Writable (d : Decimal) : Prop := d = ⟨0, 0⟩ ∨ 0 < d.digits

theorem Writable.legal_numeral (h : d.Writable) (negative : Bool) : (d.numeral negative).Legal := by
  have hzero : ∀ e ∈ [0], e < 10 := by decide
  rcases h with rfl | hpos
  · exact ⟨Or.inl rfl, hzero, hzero, nofun⟩
  obtain ⟨-, hten, ⟨first, rest, hds, hfirst⟩, -⟩ := spells_digitValues d.digits
  have hzeros : ∀ k, ∀ e ∈ List.replicate k 0, e < 10 := by
    intro k e he
    rw [List.eq_of_mem_replicate he]
    decide
  have hhead : ∀ k, 0 < k → ∃ e es, (digitValues d.digits).take k = e :: es ∧ 0 < e := by
    intro k hk
    obtain ⟨j, rfl⟩ := Nat.exists_eq_succ_of_ne_zero hk.ne'
    rw [hds]
    exact ⟨first, rest.take j, rfl, hfirst hpos⟩
  have htake : ∀ k, ∀ e ∈ (digitValues d.digits).take k, e < 10 := fun k e he =>
    hten e (List.mem_of_mem_take he)
  have hdrop : ∀ k, ∀ e ∈ (digitValues d.digits).drop k, e < 10 := fun k e he =>
    hten e (List.mem_of_mem_drop he)
  unfold numeral
  dsimp only
  split
  · refine ⟨Or.inr ?_, ?_, hzero, nofun⟩
    · rw [hds]
      exact ⟨first, _, rfl, hfirst hpos⟩
    · intro e he
      exact (List.mem_append.mp he).elim (hten e) (hzeros _ e)
  split
  · rename_i hpoint
    exact ⟨Or.inr (hhead _ (by omega)), htake _, hdrop _, nofun⟩
  split
  · refine ⟨Or.inl rfl, hzero, ?_, nofun⟩
    intro e he
    exact (List.mem_append.mp he).elim (hzeros _ e) (hten e)
  · refine ⟨Or.inr (hhead 1 Nat.one_pos), htake 1, hdrop 1, ?_⟩
    rintro below ds ⟨⟩
    obtain ⟨-, hten', ⟨e, es, hes, -⟩, -⟩ := spells_digitValues
      (((digitValues d.digits).length : Int) + d.exponent - 1).natAbs
    refine ⟨?_, hten'⟩
    rw [hes]
    exact List.cons_ne_nil e es

theorem length_whole_numeral (negative : Bool) (d : Decimal) :
    (d.numeral negative).whole.length ≤ 19 := by
  unfold numeral
  dsimp only
  split
  · rw [List.length_append, List.length_replicate]
    omega
  split
  · exact (List.length_take_le _ _).trans (by omega)
  split
  · exact (by decide : 1 ≤ 19)
  · exact (List.length_take_le _ _).trans (by decide)

theorem float_numeral (negative : Bool) (d : Decimal) :
    (d.numeral negative).fraction ≠ [] ∨ (d.numeral negative).exponent ≠ none := by
  obtain ⟨-, -, ⟨first, rest, hds, -⟩, -⟩ := spells_digitValues d.digits
  unfold numeral
  dsimp only
  split
  · exact Or.inl (List.cons_ne_nil 0 [])
  split
  · left
    rw [ne_eq, List.drop_eq_nil_iff]
    omega
  split
  · left
    rw [hds]
    exact List.append_ne_nil_of_right_ne_nil _ (List.cons_ne_nil first rest)
  · exact Or.inr nofun

theorem exponentValue_of_int (n : Numeral) {i : Int}
    (h : n.exponent = some (decide (i < 0), digitValues i.natAbs)) : n.exponentValue = i := by
  rw [Numeral.exponentValue, h]
  dsimp only
  rw [(spells_digitValues i.natAbs).value]
  by_cases hneg : i < 0
  · rw [if_pos (decide_eq_true hneg)]
    omega
  · rw [if_neg (by simpa using hneg)]
    omega

/-- **The numeral spells the number that the decimal denotes.** -/
theorem magnitude_numeral (negative : Bool) (d : Decimal) :
    (d.numeral negative).magnitude = d.magnitude := by
  obtain ⟨-, -, ⟨first, rest, hds, -⟩, hvalue⟩ := spells_digitValues d.digits
  unfold numeral
  dsimp only
  split
  · rename_i hwhole
    obtain ⟨k, hk⟩ := Int.eq_ofNat_of_zero_le hwhole.1
    show (Numeral.ofDigits (digitValues d.digits ++ List.replicate d.exponent.toNat 0 ++ [0]) : ℚ) *
      10 ^ (0 - 1 : ℤ) = d.digits * 10 ^ d.exponent
    rw [Numeral.ofDigits_append, Numeral.ofDigits_append_zeros, hvalue, hk, Int.toNat_natCast,
      zpow_natCast]
    push_cast
    norm_num
    ring
  rename_i hwhole
  split
  · rename_i hpoint
    unfold Numeral.magnitude magnitude
    rw [List.take_append_drop, hvalue, List.length_drop]
    congr 2
    show (0 : ℤ) - _ = _
    omega
  split
  · unfold Numeral.magnitude magnitude
    have hdigits : Numeral.ofDigits ([0] ++ (List.replicate
        (-((digitValues d.digits).length + d.exponent)).toNat 0 ++ digitValues d.digits)) =
        d.digits := (Numeral.ofDigits_zeros_append _ _).trans hvalue
    rw [hdigits, List.length_append, List.length_replicate]
    congr 2
    show (0 : ℤ) - _ = _
    omega
  · unfold Numeral.magnitude magnitude
    rw [List.take_append_drop, hvalue, List.length_drop, exponentValue_of_int _ rfl]
    congr 2
    rw [hds, List.length_cons]
    omega

end Decimal
/-! ## 2. Binary numbers -/

namespace Binary64

variable {x : Binary64}

/-- The decimal that a binary number is written as. -/
def decimal (x : Binary64) : Decimal := if x.isZero then ⟨0, 0⟩ else x.shortest

/-- The numeral that a binary number is written as. -/
def numeral (x : Binary64) : Numeral := x.decimal.numeral x.negative

theorem writeFloat_eq (x : Binary64) :
    Number.writeFloat x = signedText x.negative x.numeral.spell := by
  have hbody : (if x.isZero then ['0', '.', '0'] else Number.writeDecimal x.shortest) =
      Number.writeDecimal x.decimal := by
    unfold decimal
    split
    · decide
    · rfl
  rw [numeral, ← Decimal.writeDecimal_eq, Number.writeFloat, hbody, signedText]

theorem Finite.writable (h : x.Finite) : x.decimal.Writable := by
  unfold decimal
  split
  · exact Or.inl rfl
  · rename_i hzero
    exact Or.inr (shortest_pos (by simpa [isZero] using hzero) h)

theorem bound_pos : 0 < bound := by
  have hpow : (0 : ℚ) < 2 ^ maxExponent := zpow_pos two_pos _
  unfold bound
  nlinarith

/-- Below the largest two numbers there is room for two roundings: that of the digits and that of the
power of ten by which they are multiplied. -/
theorem room (h : x.Finite) (hx : x.exponent = maxExponent → x.significand + 3 ≤ 2 ^ 53) :
    x.decimal.magnitude * (1 + 1 / 2 ^ 53) ^ 2 < bound := by
  have hpow : (0 : ℚ) < 2 ^ maxExponent := zpow_pos two_pos _
  unfold decimal
  split
  · rw [Decimal.magnitude, Nat.cast_zero, zero_mul, zero_mul]
    exact bound_pos
  have hle : x.shortest.magnitude ≤ (2 ^ 53 - 5 / 2) * 2 ^ maxExponent := by
    refine x.shortest_le.trans ?_
    by_cases hexp : x.exponent = maxExponent
    · have hsig : (x.significand : ℚ) + 3 ≤ 2 ^ 53 := by exact_mod_cast hx hexp
      rw [hexp]
      nlinarith
    · -- With a smaller exponent the number is not even half of the bound.
      have hsig : (x.significand : ℚ) + 1 ≤ 2 ^ 53 := by exact_mod_cast h.significand_lt
      have hhalf : (2 : ℚ) ^ x.exponent ≤ 2 ^ (maxExponent - 1) :=
        zpow_le_zpow_right₀ one_le_two (by have := h.le_max; omega)
      rw [zpow_sub_one₀ two_ne_zero] at hhalf
      have hpos : (0 : ℚ) < 2 ^ x.exponent := zpow_pos two_pos _
      nlinarith
  unfold bound
  generalize (2 : ℚ) ^ maxExponent = p at *
  calc x.shortest.magnitude * (1 + 1 / 2 ^ 53) ^ 2
      ≤ (2 ^ 53 - 5 / 2) * p * (1 + 1 / 2 ^ 53) ^ 2 := by gcongr
    _ = (2 ^ 53 - 5 / 2) * (1 + 1 / 2 ^ 53) ^ 2 * p := by ring
    _ < (2 ^ 53 - 1 / 2) * p := by
        gcongr
        norm_num

/-- The largest two numbers are both read as the largest one. -/
theorem value_largest : ∀ negative : Bool, ∀ k, k < 2 →
    (Binary64.mk negative (9007199254740990 + k) 971).numeral.value =
      some (.float ⟨negative, 9007199254740991, 971⟩) := by decide +kernel

/-- **A finite number is read back as a finite number.** It need not be the same one. That it is finite
is what lets a document be written and read any number of times. -/
theorem Finite.exists_value (h : x.Finite) :
    ∃ y : Binary64, x.numeral.value = some (.float y) ∧ y.Finite := by
  by_cases hx : x.exponent = maxExponent → x.significand + 3 ≤ 2 ^ 53
  · have hroom : x.numeral.magnitude * (1 + 1 / 2 ^ 53) ^ 2 < bound := by
      rw [numeral, Decimal.magnitude_numeral]
      exact room h hx
    obtain ⟨y, hy, hfin⟩ := (h.writable.legal_numeral x.negative).exists_value
      (Decimal.length_whole_numeral _ _) (Decimal.float_numeral _ _) hroom
    exact ⟨_, hy, hfin.significand_lt, hfin.min_le, hfin.le_max⟩
  · obtain ⟨hexp, hsig⟩ := Classical.not_imp.mp hx
    have hlt := h.significand_lt
    obtain ⟨negative, significand, exponent⟩ := x
    obtain rfl : exponent = 971 := hexp
    obtain ⟨k, rfl⟩ : ∃ k, significand = 9007199254740990 + k :=
      Nat.exists_eq_add_of_le (by dsimp only at hsig; omega)
    refine ⟨_, value_largest negative k (by dsimp only at hlt; omega), ?_, ?_, ?_⟩
    · exact (by decide : 9007199254740991 < 2 ^ 53)
    · exact (by decide : minExponent ≤ 971)
    · exact (by decide : (971 : ℤ) ≤ maxExponent)

end Binary64
/-! ## 3. Numbers -/

namespace Number

variable {n : Number}

/-- The number is a whole one, or a binary one that is finite. -/
def Sound : Number → Prop
  | .int _ => True
  | .float x => x.Finite

/-- The numeral that a number is written as. -/
def numeral : Number → Numeral
  | .int i => .ofInteger i.val
  | .float x => x.numeral

/-- The number that is read for a written one. -/
def reread (n : Number) : Number := n.numeral.value.getD n

theorem write_eq (n : Number) : n.write = signedText n.numeral.negative n.numeral.spell := by
  cases n with
  | int i => exact writeInt_eq i.val
  | float x =>
    have hsign : x.numeral.negative = x.negative := Decimal.numeral_negative _ _
    rw [numeral, hsign]
    exact x.writeFloat_eq

theorem Sound.legal_numeral (h : n.Sound) : n.numeral.Legal := by
  cases n with
  | int i => exact Numeral.legal_ofInteger i.val
  | float x => exact (Binary64.Finite.writable h).legal_numeral x.negative

theorem reread_int (i : Integer64) : (Number.int i).reread = .int i := by
  rw [reread, numeral, Numeral.value_ofInteger]
  rfl

/-- **A number is read back as a number**: as itself when it is whole, and as a finite one else. An
infinite number has no numeral that could be read (`h`). -/
theorem Sound.value_numeral (h : n.Sound) : n.numeral.value = some n.reread ∧ n.reread.Sound := by
  cases n with
  | int i =>
    rw [reread_int]
    exact ⟨Numeral.value_ofInteger i, trivial⟩
  | float x =>
    obtain ⟨y, hy, hfin⟩ := Binary64.Finite.exists_value h
    have hread : (Number.float x).reread = .float y := by
      rw [reread, numeral, hy]
      rfl
    rw [hread]
    exact ⟨hy, hfin⟩

/-- **What a numeral denotes is sound**, whatever the numeral. One that is too large for a finite
number denotes nothing, and the text that it stands in cannot be read. -/
theorem sound_of_value {m : Numeral} (h : m.value = some n) : n.Sound := by
  obtain ⟨hwhole, -, -⟩ := Numeral.gather_le m.whole (Nat.zero_le Numeral.maxSignificand)
  obtain ⟨hboth, -, -⟩ := Numeral.gather_le m.fraction hwhole
  rw [Numeral.value] at h
  dsimp only at h
  split at h
  · obtain ⟨i, -, rfl⟩ := Option.map_eq_some_iff.mp h
    trivial
  · obtain ⟨x, hx, rfl⟩ := Option.map_eq_some_iff.mp h
    obtain ⟨hsig, hmin, hmax⟩ := Numeral.finite_of_scale? hboth hx
    exact ⟨hsig, hmin, hmax⟩

end Number
end AlertStatus
