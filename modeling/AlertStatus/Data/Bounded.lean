/-!
# Bounded integers

Times, check states and codes are integers from a fixed interval. `Bounded lo hi` carries the two
bounds, so a value of it is always in range, its comparisons are those of the integers, and the one
place where a result could leave the interval (`Bounded.minus`) stops at the nearer end.
-/

set_option autoImplicit false

namespace AlertStatus

/-- An integer between `lo` and `hi`, both included. -/
structure Bounded (lo hi : Int) where
  val : Int
  lo_le : lo ≤ val
  le_hi : val ≤ hi
deriving DecidableEq

namespace Bounded

variable {lo hi : Int}

/-- The number `i`, when it lies in the interval. -/
def ofInt? (lo hi i : Int) : Option (Bounded lo hi) :=
  if h : lo ≤ i ∧ i ≤ hi then some ⟨i, h.1, h.2⟩ else none

/-- The point of the interval nearest to `i`; `a` shows that the interval has one. -/
def nearest (a : Bounded lo hi) (i : Int) : Bounded lo hi :=
  if h₁ : i < lo then ⟨lo, Int.le_refl lo, Int.le_trans a.lo_le a.le_hi⟩
  else if h₂ : hi < i then ⟨hi, Int.le_trans a.lo_le a.le_hi, Int.le_refl hi⟩
  else ⟨i, Int.not_lt.mp h₁, Int.not_lt.mp h₂⟩

/-- The difference, held at the end of the interval that it would pass. -/
def minus (a b : Bounded lo hi) : Bounded lo hi := a.nearest (a.val - b.val)

instance : LT (Bounded lo hi) := ⟨fun a b => a.val < b.val⟩
instance : LE (Bounded lo hi) := ⟨fun a b => a.val ≤ b.val⟩

instance (a b : Bounded lo hi) : Decidable (a < b) := inferInstanceAs (Decidable (a.val < b.val))
instance (a b : Bounded lo hi) : Decidable (a ≤ b) := inferInstanceAs (Decidable (a.val ≤ b.val))

theorem ext {a b : Bounded lo hi} (h : a.val = b.val) : a = b := by
  cases a; cases b; cases h; rfl

theorem val_nearest (a : Bounded lo hi) (i : Int) : (a.nearest i).val = max lo (min i hi) := by
  have := a.lo_le
  have := a.le_hi
  unfold nearest
  split
  · simp only
    omega
  · split <;> simp only <;> omega

theorem val_minus (a b : Bounded lo hi) : (a.minus b).val = max lo (min (a.val - b.val) hi) :=
  val_nearest a _

theorem ofInt?_val (a : Bounded lo hi) : ofInt? lo hi a.val = some a := by
  simp [ofInt?, a.lo_le, a.le_hi]

end Bounded

/-- A point in time in seconds since the epoch, or a span of seconds: a signed 64-bit number. -/
abbrev Instant := Bounded (-9223372036854775808) 9223372036854775807

/-- The state a check reports, a signed 32-bit number. Zero is a healthy check. -/
abbrev CheckState := Bounded (-2147483648) 2147483647

def CheckState.ok : CheckState := ⟨0, by decide, by decide⟩

/-- A code of the status table, one byte. -/
abbrev Code := Bounded 0 255

end AlertStatus
