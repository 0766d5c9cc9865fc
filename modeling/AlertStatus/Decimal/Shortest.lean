import AlertStatus.Decimal.Binary64

/-!
# The shortest decimal of a binary number

Of all decimals that round to a given binary64 number, the written one has the fewest digits, and of
those with the fewest digits it is the nearest. The decimals that round to `m · 2 ^ e` fill an interval
around it, its ends included exactly when `m` is even. Grids of multiples of `10 ^ k` are tried from
coarse to fine; on each grid only the two neighbours of the number can be the nearest point.
-/

set_option autoImplicit false

namespace AlertStatus

/-- The positive decimal `digits · 10 ^ exponent`. -/
structure Decimal where
  digits : Nat
  exponent : Int
deriving DecidableEq

/-- The decimals that round to one number: `low / den` to `high / den` around `mid / den`. -/
structure RoundingInterval where
  low : Nat
  mid : Nat
  high : Nat
  den : Nat
  closed : Bool

namespace RoundingInterval

/-- The interval of `x`. Below a power of two the next number is half as far as above it. -/
def of (x : Binary64) : RoundingInterval :=
  let m := x.significand
  let up := Nat.pow 2 (x.exponent - 2).toNat
  let gap := if m = Nat.pow 2 52 ∧ Binary64.minExponent < x.exponent then 1 else 2
  { low := (4 * m - gap) * up
    mid := 4 * m * up
    high := (4 * m + 2) * up
    den := Nat.pow 2 (2 - x.exponent).toNat
    closed := m % 2 = 0 }

/-- The nearest multiple of `10 ^ k` that lies in the interval, as that multiple. -/
def hit? (i : RoundingInterval) (k : Int) : Option Nat :=
  let up := Nat.pow 10 (-k).toNat
  let unit := i.den * Nat.pow 10 k.toNat
  let inside (c : Nat) : Bool :=
    if i.closed then i.low * up ≤ c * unit && c * unit ≤ i.high * up
    else i.low * up < c * unit && c * unit < i.high * up
  let c := i.mid * up / unit
  let twice := 2 * (i.mid * up)
  let middle := (2 * c + 1) * unit
  match inside c, inside (c + 1) with
  | true, true => if twice < middle ∨ (twice = middle ∧ c % 2 = 0) then some c else some (c + 1)
  | true, false => some c
  | false, true => some (c + 1)
  | false, false => none

/-- Tries `10 ^ k`, then finer grids. Seventeen digits are always enough. -/
def search (i : RoundingInterval) : Nat → Int → Decimal
  | 0, k => ⟨i.mid * Nat.pow 10 (-k).toNat / (i.den * Nat.pow 10 k.toNat), k⟩
  | n + 1, k =>
    match i.hit? k with
    | some c => ⟨c, k⟩
    | none => search i n (k - 1)

/-- An exponent `p` with `mid / den < 10 ^ p`, at most one more than needed. -/
def ceiling (i : RoundingInterval) : Int :=
  ((Nat.toDigits 10 (i.mid * Nat.pow 10 330 / i.den)).length : Int) - 330

end RoundingInterval

/-- The shortest decimal that rounds to the magnitude of `x`, which is not zero. -/
def Binary64.shortest (x : Binary64) : Decimal :=
  let i := RoundingInterval.of x
  i.search 18 i.ceiling

end AlertStatus
