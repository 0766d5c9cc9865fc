import AlertStatus.Data.Bounded

/-!
# Ordering by time

Entries are shown oldest first; entries of one time keep the order in which they came.
-/

set_option autoImplicit false

namespace AlertStatus

variable {α : Type}

/-- Puts `a` before the first entry that is not older. -/
def insertByTime (time : α → Instant) (a : α) : List α → List α
  | [] => [a]
  | b :: rest => if time a ≤ time b then a :: b :: rest else b :: insertByTime time a rest

/-- The entries oldest first, those of one time in their order. -/
def orderByTime (time : α → Instant) (l : List α) : List α := l.foldr (insertByTime time) []

end AlertStatus
