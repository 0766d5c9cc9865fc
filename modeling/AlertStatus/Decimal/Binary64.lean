/-!
# Binary floating-point numbers in exact arithmetic

A finite binary64 number is a sign, a whole significand and a power of two. Rounding, products and
quotients are computed on natural numbers: the exact result is a fraction, and `Binary64.ofRatio?`
takes the nearest representable number, the even one of two that are equally near. There is no
infinity here; a result beyond the largest finite number is `none`.
-/

set_option autoImplicit false

namespace AlertStatus

/-- The number `significand · 2 ^ exponent`, below zero when `negative` is set. -/
structure Binary64 where
  negative : Bool
  significand : Nat
  exponent : Int
deriving DecidableEq

/-- The whole number nearest to `n / d`; halfway between two, the even one. -/
def roundDiv (n d : Nat) : Nat :=
  let q := n / d
  let r := n % d
  if d < 2 * r ∨ (d = 2 * r ∧ q % 2 = 1) then q + 1 else q

namespace Binary64

/-- The least exponent of a representable number. -/
def minExponent : Int := -1074

/-- The greatest exponent of a finite number. -/
def maxExponent : Int := 971

def zero (negative : Bool) : Binary64 := ⟨negative, 0, minExponent⟩

def isZero (x : Binary64) : Bool := x.significand = 0

/-- Numerator and denominator of `num / den` counted in units of `2 ^ e`. -/
def inUnits (num den : Nat) (e : Int) : Nat × Nat :=
  (num * Nat.pow 2 (-e).toNat, den * Nat.pow 2 e.toNat)

/-- The exponent at which `num / den` has a significand of 53 bits, but not less than the least one. -/
def exponentOf (num den : Nat) : Int :=
  let e : Int := (num.log2 : Int) - (den.log2 : Int) - 52
  let scaled := inUnits num den e
  max minExponent (if scaled.1 / scaled.2 < Nat.pow 2 52 then e - 1 else e)

/-- The finite number nearest to `num / den`, or `none` when that lies beyond the largest one. -/
def ofRatio? (num den : Nat) : Option Binary64 :=
  if num = 0 then some (zero false)
  else
    let e := exponentOf num den
    let scaled := inUnits num den e
    let q := roundDiv scaled.1 scaled.2
    let rounded : Nat × Int := if q = Nat.pow 2 53 then (Nat.pow 2 52, e + 1) else (q, e)
    if maxExponent < rounded.2 then none else some ⟨false, rounded.1, rounded.2⟩

/-- The magnitude of `x` as a fraction. -/
def ratio (x : Binary64) : Nat × Nat :=
  (x.significand * Nat.pow 2 x.exponent.toNat, Nat.pow 2 (-x.exponent).toNat)

/-- The rounded product of two magnitudes. -/
def mul? (x y : Binary64) : Option Binary64 :=
  ofRatio? (x.ratio.1 * y.ratio.1) (x.ratio.2 * y.ratio.2)

/-- The rounded quotient of two magnitudes. -/
def div? (x y : Binary64) : Option Binary64 :=
  ofRatio? (x.ratio.1 * y.ratio.2) (x.ratio.2 * y.ratio.1)

def withSign (negative : Bool) (x : Binary64) : Binary64 := { x with negative }

/-- Equality of numbers: the two zeros are equal. -/
def same (x y : Binary64) : Bool := x = y || (x.isZero && y.isZero)

end Binary64
end AlertStatus
