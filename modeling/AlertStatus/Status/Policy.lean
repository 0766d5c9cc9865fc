import AlertStatus.Status.Basic

/-!
# Thresholds and field policies

What can be set about the status machine and the archive: how many oscillations in which window make
an entity flap, how quick a recovery is stealthy and for how long it is shown, whether a change of state
lifts a cancellation, and which fields of an event are never written to its live record.
-/

set_option autoImplicit false

namespace AlertStatus

structure Policy where
  /-- Oscillations within the flapping window that make an entity flap. -/
  flappingFreq : Nat
  /-- Length of the flapping window. -/
  flappingTime : Instant
  /-- How long after the start of an alert a recovery is stealthy. -/
  stealthyTime : Instant
  /-- How long a stealthy status is kept before a sweep resolves it. -/
  stealthyShow : Instant
  /-- Whether a changing state lifts a cancellation. -/
  restoreEvent : Bool
  /-- Event fields that are never written by a merge. -/
  exclusionFields : List String
deriving DecidableEq

namespace Policy

def standard : Policy where
  flappingFreq := 10
  flappingTime := ⟨3600, by decide, by decide⟩
  stealthyTime := ⟨360, by decide, by decide⟩
  stealthyShow := ⟨360, by decide, by decide⟩
  restoreEvent := true
  exclusionFields := []

end Policy

namespace StatusRecord

/-- Whether a sweep at `now` should resolve the record. -/
def isExpired (r : StatusRecord) (now stealthyShow flappingTime : Instant) : Bool :=
  r.outlasts (now.minus stealthyShow) (now.minus flappingTime)

end StatusRecord
end AlertStatus
