import AlertStatus.Data.Bounded
import AlertStatus.Decimal.Shortest

/-!
# Numbers of documents

A number is a whole number that fits in 64 bits, signed or not, or a binary64 number. A numeral
without fraction and exponent denotes a whole number while it fits, every other numeral a binary one:
its digits are gathered while they fit in 64 bits, and the result is multiplied or divided by a power
of ten with one rounding per operation. `-0` is the binary zero.

A binary number is written with the fewest digits that denote it: positionally while the point stands
within sixteen digits or follows at most four zeros, and with an exponent otherwise.
-/

set_option autoImplicit false

namespace AlertStatus

/-- A whole number that fits in 64 bits, signed or unsigned. -/
abbrev Integer64 := Bounded (-9223372036854775808) 18446744073709551615

inductive Number where
  | int (i : Integer64)
  | float (x : Binary64)
deriving DecidableEq

/-- A number as it is written: its sign, the digits before the point and after it, and the digits of
the exponent with `true` for a negative one. A numeral without a point has no digits after it. -/
structure Numeral where
  negative : Bool
  whole : List Nat
  fraction : List Nat
  exponent : Option (Bool × List Nat)

namespace Numeral

/-- Largest significand that is gathered exactly. -/
def maxSignificand : Nat := 18446744073709551615

/-- Gathers digits while they fit; the second result counts those left over. -/
def gather (s : Nat) : List Nat → Nat × Nat
  | [] => (s, 0)
  | d :: ds => if s * 10 + d ≤ maxSignificand then gather (s * 10 + d) ds else (s, ds.length + 1)

def ofDigits (ds : List Nat) : Nat := ds.foldl (fun n d => n * 10 + d) 0

/-- The binary number nearest to `10 ^ k`. -/
def powerOfTen? (k : Nat) : Option Binary64 := Binary64.ofRatio? (Nat.pow 10 k) 1

/-- Divides by `10 ^ 308`, `n` times. -/
def divideDown : Nat → Binary64 → Option Binary64
  | 0, x => some x
  | n + 1, x =>
    if x.isZero then some x
    else do
      let p ← powerOfTen? 308
      let y ← x.div? p
      divideDown n y

/-- The rounded value of `s · 10 ^ e`, or `none` when it is too large. -/
def scale? (s : Nat) (e : Int) : Option Binary64 := do
  let x ← Binary64.ofRatio? s 1
  if x.isZero then some x
  else if 308 < e then none
  else if 0 ≤ e then
    let p ← powerOfTen? e.toNat
    x.mul? p
  else
    let k := e.natAbs
    let y ← divideDown ((k - 1) / 308) x
    let p ← powerOfTen? (k - (k - 1) / 308 * 308)
    y.div? p

/-- The power of ten that the exponent part adds. -/
def exponentValue (n : Numeral) : Int :=
  match n.exponent with
  | none => 0
  | some (below, ds) => if below then -(ofDigits ds : Int) else (ofDigits ds : Int)

/-- The number that a numeral denotes; `none` when it is too large. -/
def value (n : Numeral) : Option Number :=
  let (s, left) := gather 0 n.whole
  if left = 0 ∧ n.fraction = [] ∧ n.exponent = none ∧
      ¬ (n.negative = true ∧ (s = 0 ∨ 9223372036854775808 < s)) then
    (Bounded.ofInt? _ _ (if n.negative then -(s : Int) else (s : Int))).map Number.int
  else
    let (s', ignored) := gather s n.fraction
    let e : Int := (left : Int) - ((n.fraction.length - ignored : Nat) : Int) + n.exponentValue
    (scale? s' e).map fun x => Number.float (x.withSign n.negative)

end Numeral

namespace Number

def digits (n : Nat) : List Char := Nat.toDigits 10 n

def writeInt (i : Int) : List Char :=
  if i < 0 then '-' :: digits i.natAbs else digits i.natAbs

/-- The text of `d`, which has `digits d.digits` and a point after `point` of them. -/
def writeDecimal (d : Decimal) : List Char :=
  let ds := digits d.digits
  let point : Int := (ds.length : Int) + d.exponent
  if 0 ≤ d.exponent ∧ point ≤ 16 then
    ds ++ List.replicate d.exponent.toNat '0' ++ ['.', '0']
  else if 0 < point ∧ point ≤ 16 then
    ds.take point.toNat ++ '.' :: ds.drop point.toNat
  else if -5 < point ∧ point ≤ 0 then
    '0' :: '.' :: List.replicate (-point).toNat '0' ++ ds
  else
    let fraction := if ds.length = 1 then [] else '.' :: ds.drop 1
    ds.take 1 ++ fraction ++ 'e' :: writeInt (point - 1)

def writeFloat (x : Binary64) : List Char :=
  let body := if x.isZero then ['0', '.', '0'] else writeDecimal x.shortest
  if x.negative then '-' :: body else body

def write : Number → List Char
  | .int i => writeInt i.val
  | .float x => writeFloat x

/-- Equality of numbers. A whole number and a binary one are never equal; the two zeros are. -/
def same : Number → Number → Bool
  | .int i, .int j => i = j
  | .float x, .float y => x.same y
  | _, _ => false

end Number
end AlertStatus
