import AlertStatus.Status.Table
import AlertStatus.Store.Basic

/-!
# Tracking statuses in a store

The tracker loads the status record of an entity, computes the next one by the rule that the status
table registers, and stores it. A check that is older than the record is ignored.
-/

set_option autoImplicit false

namespace AlertStatus

/-- Why the status of an entity could not be processed. -/
inductive StatusError where
  | noRule (status : Status) (cause : TableError)
  | unreadable (entity : String)
  | unknownEntity (entity : String)
  | store (cause : StoreError)
deriving DecidableEq

def StatusError.message : StatusError → String
  | .noRule status cause =>
    "no task found to process status " ++ status.name ++ ": " ++ cause.message
  | .unreadable _ => "malformed status for "
  | .unknownEntity entity => "no status recorded for entity " ++ entity
  | .store cause => "status store error: " ++ cause.message

/-- What the tracker goes by: the registered rules and the thresholds. -/
structure Tracker where
  table : StatusTable
  policy : Policy

namespace Tracker

variable {σ : Type} [Store σ]

/-- The error that a failed read of an entity's record stands for. -/
def readError (entity : String) : StoreError → StatusError
  | .unreadable => .unreadable entity
  | e => .store e

def getStatus (entity : String) : Action σ StatusError (Option StatusRecord) :=
  (Store.getStatus entity).rename (readError entity)

def putStatus (entity : String) (r : StatusRecord) : Action σ StatusError Unit :=
  (Store.putStatus entity r).rename .store

/-- The record of an entity that has one. -/
def known (entity : String) : Action σ StatusError StatusRecord := do
  match ← getStatus entity with
  | some r => return r
  | none => .fail (.unknownEntity entity)

/-- The record after a check, for an entity whose record is `r`. -/
def advance (t : Tracker) (r : StatusRecord) (c : Check) : Except StatusError StatusRecord :=
  match t.table.ruleOf r with
  | .error e => .error (.noRule r.value e)
  | .ok rule => .ok ((rule.applyRule r t.policy c).stamp t.policy c)

/-- Applies a check to the status of an entity and stores the result. -/
def process (t : Tracker) (entity routingKey : String) (c : Check) :
    Action σ StatusError StatusRecord := do
  match ← getStatus entity with
  | none => keep (.first c.state c.timestamp)
  | some r =>
    if c.timestamp < r.timestamp then return r
    else keep (← .ofExcept (t.advance r c))
where
  /-- Stores the record under the routing key of the event. -/
  keep (r : StatusRecord) : Action σ StatusError StatusRecord := do
    let r := { r with routingKey := some routingKey }
    putStatus entity r
    return r

def canceled (r : StatusRecord) (timestamp : Instant) : StatusRecord :=
  { r with value := .canceled, pendingTime := none, stealthyTime := none, timestamp }

/-- Marks an entity as canceled. -/
def cancel (entity : String) (timestamp : Instant) : Action σ StatusError StatusRecord := do
  let r := canceled (← known entity) timestamp
  putStatus entity r
  return r

/-- The record after a cancellation is lifted: the plain status, nothing remembered. -/
def restored (r : StatusRecord) (timestamp : Instant) : StatusRecord :=
  { { r with flappingTimes := [] }.settle ⟨r.state, timestamp⟩ with timestamp }

/-- Lifts the cancellation of an entity; one that is not canceled keeps its record. -/
def uncancel (entity : String) (timestamp : Instant) : Action σ StatusError StatusRecord := do
  let r ← known entity
  if r.value = .canceled then
    let r := restored r timestamp
    putStatus entity r
    return r
  else return r

/-- The records that a sweep at `now` should resolve. -/
def findExpired (t : Tracker) (now : Instant) :
    Action σ StatusError (List (String × StatusRecord)) :=
  (Store.expiredStatuses (now.minus t.policy.stealthyShow) (now.minus t.policy.flappingTime)).rename
    .store

/-- Reads the record of an entity again and resolves it if it is still expired. The result is the new
record, if there is one. -/
def expire (t : Tracker) (entity : String) (now : Instant) :
    Action σ StatusError (Option StatusRecord) := do
  match ← getStatus entity with
  | none => return none
  | some r =>
    let resolved := r.resolve t.policy now
    if r.isExpired now t.policy.stealthyShow t.policy.flappingTime ∧ resolved ≠ r then
      putStatus entity resolved
      return some resolved
    else return none

end Tracker
end AlertStatus
