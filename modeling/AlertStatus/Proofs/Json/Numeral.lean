import AlertStatus.Json.Token
import Mathlib.Algebra.Group.Nat.Defs

/-!
# Numerals are read as they are spelled

A numeral is spelled by its digits, a point before the digits of the fraction, and a mark before those
of the exponent. The reader takes it character by character; here it is followed part by part, and what
it has read in the end is the numeral that was spelled (`Numeral.exists_read`).

The digits of a number are written from its quotients by ten. They are followed on the same recursion,
`Nat.toDigits` at `n / 10` and `n % 10`, so that what is gathered from them is the number again.
-/

set_option autoImplicit false

namespace AlertStatus

/-! ## 1. Digits -/

theorem decimalDigit?_digitChar : ∀ d, d < 10 → decimalDigit? (Nat.digitChar d) = some d := by
  decide

/-- The values of the digits of a number. -/
def digitValues (n : Nat) : List Nat := (Number.digits n).filterMap decimalDigit?

theorem digitValues_of_lt {n : Nat} (h : n < 10) : digitValues n = [n] := by
  unfold digitValues Number.digits
  rw [Nat.toDigits_of_lt_base h, List.filterMap_cons, decimalDigit?_digitChar n h]
  rfl

theorem digitValues_of_le {n : Nat} (h : 10 ≤ n) :
    digitValues n = digitValues (n / 10) ++ [n % 10] := by
  unfold digitValues Number.digits
  rw [Nat.toDigits_of_base_le (by decide) h, List.filterMap_append, List.filterMap_cons,
    decimalDigit?_digitChar (n % 10) (Nat.mod_lt n (by decide))]
  rfl

/-- **What the digits of a number are**: below ten, not starting with zero unless the number is, and
denoting it. -/
structure Spells (n : Nat) (ds : List Nat) : Prop where
  chars : Number.digits n = ds.map Nat.digitChar
  lt_ten : ∀ d ∈ ds, d < 10
  head : ∃ d rest, ds = d :: rest ∧ (0 < n → 0 < d)
  value : Numeral.ofDigits ds = n

theorem Numeral.ofDigits_append (ds : List Nat) (d : Nat) :
    ofDigits (ds ++ [d]) = ofDigits ds * 10 + d := by
  unfold ofDigits
  rw [List.foldl_append]
  rfl

theorem spells_digitValues (n : Nat) : Spells n (digitValues n) := by
  -- On the quotients by ten, as the digits are written: the last digit goes behind those of `n / 10`.
  induction n using Nat.strongRecOn with
  | ind n ih =>
    by_cases hlt : n < 10
    · rw [digitValues_of_lt hlt]
      refine ⟨?_, ?_, ⟨n, [], rfl, id⟩, ?_⟩
      · exact Nat.toDigits_of_lt_base hlt
      · intro d hd
        rw [List.mem_singleton] at hd
        exact hd ▸ hlt
      · exact Nat.zero_add n
    · have hle : 10 ≤ n := Nat.not_lt.mp hlt
      obtain ⟨hchars, hten, ⟨d, rest, hds, hhead⟩, hvalue⟩ := ih (n / 10) (by omega)
      rw [digitValues_of_le hle]
      refine ⟨?_, ?_, ⟨d, rest ++ [n % 10], ?_, ?_⟩, ?_⟩
      · unfold Number.digits at hchars ⊢
        rw [Nat.toDigits_of_base_le (by decide) hle, hchars, List.map_append]
        rfl
      · intro e he
        rcases List.mem_append.mp he with he | he
        · exact hten e he
        · rw [List.mem_singleton] at he
          exact he ▸ Nat.mod_lt n (by decide)
      · rw [hds]
        rfl
      · intro _
        exact hhead (by omega)
      · rw [Numeral.ofDigits_append, hvalue]
        omega

/-! ## 2. Reading the parts of a numeral -/

namespace OpenNumeral

variable {part : NumeralPart} {negative exponentNegative : Bool} {whole fraction exponent : List Nat}
  {ds : List Nat}

theorem push?_first (negative : Bool) : ∀ d, d < 10 → 0 < d →
    (signed negative).push? (Nat.digitChar d) = some ⟨.whole, negative, [d], [], false, []⟩ := by
  cases negative <;> decide

theorem foldlM_whole (h : ∀ d ∈ ds, d < 10) (whole : List Nat) :
    (ds.map Nat.digitChar).foldlM push? ⟨.whole, negative, whole, [], false, []⟩ =
      some ⟨.whole, negative, ds.reverse ++ whole, [], false, []⟩ := by
  induction ds generalizing whole with
  | nil => rfl
  | cons d ds ih =>
    obtain ⟨hd, hds⟩ := List.forall_mem_cons.mp h
    have hpush : push? ⟨.whole, negative, whole, [], false, []⟩ (Nat.digitChar d) =
        some ⟨.whole, negative, d :: whole, [], false, []⟩ := by
      unfold push?
      rw [decimalDigit?_digitChar d hd]
    rw [List.map_cons, List.foldlM_cons, hpush, Option.bind_eq_bind, Option.bind_some, ih hds,
      List.reverse_cons, List.append_assoc]
    rfl

theorem foldlM_fraction (h : ∀ d ∈ ds, d < 10) (hne : ds ≠ [])
    (hpart : part = .point ∨ part = .fraction) (fraction : List Nat) :
    (ds.map Nat.digitChar).foldlM push? ⟨part, negative, whole, fraction, false, []⟩ =
      some ⟨.fraction, negative, whole, ds.reverse ++ fraction, false, []⟩ := by
  induction ds generalizing part fraction with
  | nil => exact absurd rfl hne
  | cons d ds ih =>
    obtain ⟨hd, hds⟩ := List.forall_mem_cons.mp h
    have hpush : push? ⟨part, negative, whole, fraction, false, []⟩ (Nat.digitChar d) =
        some ⟨.fraction, negative, whole, d :: fraction, false, []⟩ := by
      unfold push?
      rw [decimalDigit?_digitChar d hd]
      rcases hpart with rfl | rfl <;> rfl
    rw [List.map_cons, List.foldlM_cons, hpush, Option.bind_eq_bind, Option.bind_some]
    by_cases hlast : ds = []
    · subst hlast
      rfl
    · rw [ih hds hlast (Or.inr rfl), List.reverse_cons, List.append_assoc]
      rfl

theorem foldlM_exponent (h : ∀ d ∈ ds, d < 10) (hne : ds ≠ [])
    (hpart : part = .mark ∨ part = .markSign ∨ part = .exponent) (exponent : List Nat) :
    (ds.map Nat.digitChar).foldlM push?
        ⟨part, negative, whole, fraction, exponentNegative, exponent⟩ =
      some ⟨.exponent, negative, whole, fraction, exponentNegative, ds.reverse ++ exponent⟩ := by
  induction ds generalizing part exponent with
  | nil => exact absurd rfl hne
  | cons d ds ih =>
    obtain ⟨hd, hds⟩ := List.forall_mem_cons.mp h
    have hpush : push? ⟨part, negative, whole, fraction, exponentNegative, exponent⟩
          (Nat.digitChar d) =
        some ⟨.exponent, negative, whole, fraction, exponentNegative, d :: exponent⟩ := by
      unfold push?
      rw [decimalDigit?_digitChar d hd]
      rcases hpart with rfl | rfl | rfl <;> rfl
    rw [List.map_cons, List.foldlM_cons, hpush, Option.bind_eq_bind, Option.bind_some]
    by_cases hlast : ds = []
    · subst hlast
      rfl
    · rw [ih hds hlast (Or.inr (Or.inr rfl)), List.reverse_cons, List.append_assoc]
      rfl

end OpenNumeral

/-! ## 3. Whole numerals -/

namespace Numeral

/-- The characters of a fraction: none, or a point and the digits. -/
def spellFraction : List Nat → List Char
  | [] => []
  | ds => '.' :: ds.map Nat.digitChar

/-- The characters of an exponent. -/
def spellExponent : Option (Bool × List Nat) → List Char
  | none => []
  | some (below, ds) => 'e' :: ((if below then ['-'] else []) ++ ds.map Nat.digitChar)

/-- The characters of a numeral after its sign. -/
def spell (n : Numeral) : List Char :=
  n.whole.map Nat.digitChar ++ (spellFraction n.fraction ++ spellExponent n.exponent)

/-- What is spelled can be read: all digits are below ten, there are some where they have to be, and
the whole part does not start with a zero that others follow. -/
structure Legal (n : Numeral) : Prop where
  whole : n.whole = [0] ∨ ∃ d ds, n.whole = d :: ds ∧ 0 < d
  whole_lt : ∀ d ∈ n.whole, d < 10
  fraction_lt : ∀ d ∈ n.fraction, d < 10
  exponent : ∀ below ds, n.exponent = some (below, ds) → ds ≠ [] ∧ ∀ d ∈ ds, d < 10

variable {n : Numeral}

theorem Legal.exists_digitChar (h : n.Legal) : ∃ d cs, d < 10 ∧ n.spell = Nat.digitChar d :: cs := by
  rcases h.whole with hw | ⟨d, ds, hw, -⟩
  · exact ⟨0, _, by decide, by rw [spell, hw]; rfl⟩
  · refine ⟨d, _, h.whole_lt d ?_, by rw [spell, hw]; rfl⟩
    rw [hw]
    exact List.mem_cons_self

theorem Legal.read_whole (h : n.Legal) : ∃ part, (part = .zero ∨ part = .whole) ∧
    (n.whole.map Nat.digitChar).foldlM OpenNumeral.push? (.signed n.negative) =
      some ⟨part, n.negative, n.whole.reverse, [], false, []⟩ := by
  have hten := h.whole_lt
  rcases h.whole with hw | ⟨d, ds, hw, hpos⟩
  · rw [hw]
    exact ⟨.zero, Or.inl rfl, rfl⟩
  · rw [hw] at hten ⊢
    obtain ⟨hd, hds⟩ := List.forall_mem_cons.mp hten
    refine ⟨.whole, Or.inr rfl, ?_⟩
    rw [List.map_cons, List.foldlM_cons, OpenNumeral.push?_first n.negative d hd hpos,
      Option.bind_eq_bind, Option.bind_some, OpenNumeral.foldlM_whole hds, List.reverse_cons]

theorem Legal.read_fraction (h : n.Legal) {part : NumeralPart} (hp : part = .zero ∨ part = .whole)
    (whole : List Nat) : ∃ part', (part' = .zero ∨ part' = .whole ∨ part' = .fraction) ∧
    (spellFraction n.fraction).foldlM OpenNumeral.push? ⟨part, n.negative, whole, [], false, []⟩ =
      some ⟨part', n.negative, whole, n.fraction.reverse, false, []⟩ := by
  have hten := h.fraction_lt
  cases hf : n.fraction with
  | nil => exact ⟨part, hp.imp_right Or.inl, rfl⟩
  | cons d ds =>
    rw [hf] at hten
    have hpoint : OpenNumeral.push? ⟨part, n.negative, whole, [], false, []⟩ '.' =
        some ⟨.point, n.negative, whole, [], false, []⟩ := by
      rcases hp with rfl | rfl <;> rfl
    refine ⟨.fraction, Or.inr (Or.inr rfl), ?_⟩
    rw [spellFraction, List.foldlM_cons, hpoint, Option.bind_eq_bind, Option.bind_some,
      OpenNumeral.foldlM_fraction hten (List.cons_ne_nil d ds) (Or.inl rfl), List.append_nil]
    exact List.cons_ne_nil d ds

theorem Legal.read_exponent (h : n.Legal) {part : NumeralPart}
    (hp : part = .zero ∨ part = .whole ∨ part = .fraction) (whole fraction : List Nat) :
    ∃ o : OpenNumeral, (spellExponent n.exponent).foldlM OpenNumeral.push?
        ⟨part, n.negative, whole, fraction, false, []⟩ = some o ∧ o.part.complete = true ∧
      o.close = ⟨n.negative, whole.reverse, fraction.reverse, n.exponent⟩ := by
  cases he : n.exponent with
  | none =>
    refine ⟨_, rfl, ?_, ?_⟩
    · rcases hp with rfl | rfl | rfl <;> rfl
    · rcases hp with rfl | rfl | rfl <;> rfl
  | some e =>
    obtain ⟨below, ds⟩ := e
    obtain ⟨hne, hten⟩ := h.exponent below ds he
    have hmark : OpenNumeral.push? ⟨part, n.negative, whole, fraction, false, []⟩ 'e' =
        some ⟨.mark, n.negative, whole, fraction, false, []⟩ := by
      rcases hp with rfl | rfl | rfl <;> rfl
    refine ⟨⟨.exponent, n.negative, whole, fraction, below, ds.reverse⟩, ?_, rfl, ?_⟩
    · rw [spellExponent, List.foldlM_cons, hmark, Option.bind_eq_bind, Option.bind_some]
      cases below with
      | false =>
        show (ds.map Nat.digitChar).foldlM _ _ = _
        rw [OpenNumeral.foldlM_exponent hten hne (Or.inl rfl), List.append_nil]
      | true =>
        show (ds.map Nat.digitChar).foldlM OpenNumeral.push?
          ⟨.markSign, n.negative, whole, fraction, true, []⟩ = _
        rw [OpenNumeral.foldlM_exponent hten hne (Or.inr (Or.inl rfl)), List.append_nil]
    · show Numeral.mk _ _ _ (some (below, ds.reverse.reverse)) = _
      rw [List.reverse_reverse]

/-- **What is spelled is read.** The reader has gathered the numeral when its characters are over, and
stands where a numeral may end. -/
theorem Legal.exists_read (h : n.Legal) :
    ∃ o : OpenNumeral, n.spell.foldlM OpenNumeral.push? (.signed n.negative) = some o ∧
      o.part.complete = true ∧ o.close = n := by
  obtain ⟨part, hpart, hwhole⟩ := h.read_whole
  obtain ⟨part', hpart', hfraction⟩ := h.read_fraction hpart n.whole.reverse
  obtain ⟨o, hexponent, hcomplete, hclose⟩ :=
    h.read_exponent hpart' n.whole.reverse n.fraction.reverse
  refine ⟨o, ?_, hcomplete, ?_⟩
  · rw [spell, List.foldlM_append, hwhole, Option.bind_eq_bind, Option.bind_some,
      List.foldlM_append, hfraction, Option.bind_eq_bind, Option.bind_some, hexponent]
  · rw [hclose, List.reverse_reverse, List.reverse_reverse]

/-! ## 4. Gathering digits -/

theorem ofDigits_append_zeros (ds : List Nat) (k : Nat) :
    ofDigits (ds ++ List.replicate k 0) = ofDigits ds * 10 ^ k := by
  induction k with
  | zero => rw [List.replicate_zero, List.append_nil, Nat.pow_zero, Nat.mul_one]
  | succ k ih =>
    rw [List.replicate_succ', ← List.append_assoc, ofDigits_append, ih, Nat.pow_succ, Nat.mul_assoc]
    rfl

theorem ofDigits_zeros_append (ds : List Nat) (k : Nat) :
    ofDigits (List.replicate k 0 ++ ds) = ofDigits ds := by
  induction k with
  | zero => rfl
  | succ k ih => exact ih

theorem foldl_lt {ds : List Nat} (h : ∀ d ∈ ds, d < 10) (s : Nat) :
    ds.foldl (fun n d => n * 10 + d) s < (s + 1) * 10 ^ ds.length := by
  induction ds generalizing s with
  | nil => exact Nat.lt_of_lt_of_eq (Nat.lt_succ_self s) (Nat.mul_one _).symm
  | cons d ds ih =>
    obtain ⟨hd, hds⟩ := List.forall_mem_cons.mp h
    refine Nat.lt_of_lt_of_le (ih hds (s * 10 + d)) ?_
    rw [List.length_cons, Nat.pow_succ', ← Nat.mul_assoc]
    exact Nat.mul_le_mul_right _ (by omega)

theorem le_foldl (ds : List Nat) (s : Nat) : s ≤ ds.foldl (fun n d => n * 10 + d) s := by
  induction ds generalizing s with
  | nil => exact Nat.le_refl s
  | cons d ds ih => exact Nat.le_trans (by omega) (ih (s * 10 + d))

/-- Each digit is worth a power of ten to those before it. -/
theorem mul_pow_le_foldl (ds : List Nat) (s : Nat) :
    s * 10 ^ ds.length ≤ ds.foldl (fun n d => n * 10 + d) s := by
  induction ds generalizing s with
  | nil => exact Nat.le_of_eq (Nat.mul_one s)
  | cons d ds ih =>
    refine Nat.le_trans ?_ (ih (s * 10 + d))
    rw [List.length_cons, Nat.pow_succ', ← Nat.mul_assoc]
    exact Nat.mul_le_mul_right _ (Nat.le_add_right _ _)

/-- Digits that fit are all gathered. -/
theorem gather_of_fits {ds : List Nat} {s : Nat}
    (h : ds.foldl (fun n d => n * 10 + d) s ≤ maxSignificand) :
    gather s ds = (ds.foldl (fun n d => n * 10 + d) s, 0) := by
  induction ds generalizing s with
  | nil => rfl
  | cons d ds ih =>
    rw [List.foldl_cons] at h ⊢
    rw [gather, if_pos (Nat.le_trans (le_foldl ds _) h), ih h]

/-- **Whatever the digits**, what is gathered fits, and together with the digits left over it is no
more than what the digits denote. So a numeral that is too long is cut off and never read as a larger
number. -/
theorem gather_le (ds : List Nat) {s : Nat} (hs : s ≤ maxSignificand) :
    (gather s ds).1 ≤ maxSignificand ∧ (gather s ds).2 ≤ ds.length ∧
      (gather s ds).1 * 10 ^ (gather s ds).2 ≤ ds.foldl (fun n d => n * 10 + d) s := by
  induction ds generalizing s with
  | nil => exact ⟨hs, Nat.le_refl 0, Nat.le_of_eq (Nat.mul_one s)⟩
  | cons d ds ih =>
    rw [gather]
    split
    · rename_i hfits
      obtain ⟨hmax, hleft, hle⟩ := ih hfits
      exact ⟨hmax, Nat.le_succ_of_le hleft, hle⟩
    · exact ⟨hs, Nat.le_refl _, mul_pow_le_foldl (d :: ds) s⟩

/-- A numeral of digits alone denotes a whole number, when that fits. -/
theorem value_of_digits {negative : Bool} {m : Nat} {i : Integer64} (hm : m ≤ maxSignificand)
    (hi : i.val = if negative then -(m : Int) else m)
    (hneg : negative = true → 0 < m ∧ m ≤ 9223372036854775808) :
    (Numeral.mk negative (digitValues m) [] none).value = some (.int i) := by
  have hvalue : (digitValues m).foldl (fun n d => n * 10 + d) 0 = m := (spells_digitValues m).value
  rw [value]
  dsimp only
  rw [gather_of_fits (by rw [hvalue]; exact hm), hvalue]
  dsimp only
  rw [if_pos, ← hi, Bounded.ofInt?_val]
  · rfl
  · refine ⟨rfl, rfl, rfl, ?_⟩
    rintro ⟨hn, hz⟩
    obtain ⟨h₁, h₂⟩ := hneg hn
    omega

/-- The numeral of a whole number. -/
def ofInteger (i : Int) : Numeral := ⟨decide (i < 0), digitValues i.natAbs, [], none⟩

theorem value_ofInteger (i : Integer64) : (ofInteger i.val).value = some (.int i) := by
  have hlo := i.lo_le
  have hhi := i.le_hi
  refine value_of_digits ?_ ?_ ?_
  · rw [maxSignificand]
    omega
  · by_cases hneg : i.val < 0
    · rw [decide_eq_true hneg, if_pos rfl]
      omega
    · rw [decide_eq_false hneg, if_neg Bool.false_ne_true]
      omega
  · intro hneg
    have := of_decide_eq_true hneg
    omega

theorem legal_ofInteger (i : Int) : (ofInteger i).Legal := by
  obtain ⟨-, hten, ⟨d, ds, hds, hpos⟩, hvalue⟩ := spells_digitValues i.natAbs
  refine ⟨?_, hten, nofun, nofun⟩
  by_cases hzero : i.natAbs = 0
  · left
    show digitValues i.natAbs = [0]
    rw [hzero]
    rfl
  · exact Or.inr ⟨d, ds, hds, hpos (by omega)⟩

end Numeral

/-- The text of a number with a sign. -/
def signedText (negative : Bool) (body : List Char) : List Char :=
  if negative then '-' :: body else body

theorem Number.writeInt_eq (i : Int) :
    Number.writeInt i = signedText (i < 0) (Numeral.ofInteger i).spell := by
  have hspell : (Numeral.ofInteger i).spell = Number.digits i.natAbs := by
    rw [(spells_digitValues i.natAbs).chars]
    exact List.append_nil _
  rw [hspell, Number.writeInt, signedText]
  by_cases h : i < 0
  · rw [if_pos h, if_pos (decide_eq_true h)]
  · rw [if_neg h, if_neg (by simpa using h)]

end AlertStatus
