import AlertStatus.Data.Bounded

/-!
# Whole numbers in plain text

The text of a whole number is an optional sign and at least one decimal digit, nothing else. A number
that cannot be negative takes no minus sign, not even before zero.
-/

set_option autoImplicit false

namespace AlertStatus
namespace WholeNumber

/-- The number that the digits denote, after the digits read so far. -/
def ofDigits? (n : Nat) : List Char → Option Nat
  | [] => some n
  | c :: cs => if '0' ≤ c ∧ c ≤ '9' then ofDigits? (n * 10 + (c.toNat - 48)) cs else none

/-- The number that one or more digits denote. -/
def natural? : List Char → Option Nat
  | [] => none
  | cs => ofDigits? 0 cs

/-- The number of a text between `lo` and `hi`. -/
def bounded? (lo hi : Int) (s : List Char) : Option (Bounded lo hi) :=
  match s with
  | '+' :: cs => (natural? cs).bind fun n => Bounded.ofInt? lo hi n
  | '-' :: cs => if lo < 0 then (natural? cs).bind fun n => Bounded.ofInt? lo hi (-(n : Int)) else none
  | cs => (natural? cs).bind fun n => Bounded.ofInt? lo hi n

def instant? (s : List Char) : Option Instant := bounded? _ _ s

/-- The natural number of a text, below `limit`. -/
def below? (limit : Nat) (s : List Char) : Option Nat :=
  (bounded? 0 ((limit : Int) - 1) s).map fun n => n.val.toNat

end WholeNumber
end AlertStatus
