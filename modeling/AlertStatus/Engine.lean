import AlertStatus.Event.Archive
import AlertStatus.Event.Entity
import AlertStatus.Status.Tracker

/-!
# The engine

The engine ties together the entity of an event, the status of that entity, and the live record of the
event. Its clock is a parameter: an event without a time takes `now`.
-/

set_option autoImplicit false

namespace AlertStatus

/-- Why an engine operation failed. -/
inductive EngineError where
  | status (cause : StatusError)
  | store (cause : StoreError)
  | entity (cause : EntityError)
  | unknownEvent (routingKey : String)
deriving DecidableEq

def EngineError.message : EngineError → String
  | .status cause => cause.message
  | .store cause => "event store error: " ++ cause.message
  | .entity cause => "cannot resolve entity: " ++ cause.message
  | .unknownEvent routingKey => "unknown event " ++ routingKey

structure SweepReport where
  /-- How many records the expiry query gave. -/
  examined : Nat
  resolved : List String
  /-- How many records could not be processed. -/
  failed : Nat
deriving DecidableEq

namespace SweepReport

def empty : SweepReport := ⟨0, [], 0⟩

def toJson (r : SweepReport) : Json :=
  .object
    [("examined", .ofNat r.examined), ("resolved", .arr (r.resolved.map .str)),
     ("failed", .ofNat r.failed)]

end SweepReport

/-- The tracker and the archive over one store. -/
structure Engine where
  tracker : Tracker
  archive : Archive

namespace Engine

def of (table : StatusTable) (policy : Policy) : Engine where
  tracker := ⟨table, policy⟩
  archive := ⟨policy.exclusionFields⟩

variable {σ : Type} [Store σ]

def policy (e : Engine) : Policy := e.tracker.policy

/-- A tracker operation as part of an engine operation. -/
def onStatus {α : Type} (x : Action σ StatusError α) : Action σ EngineError α := x.rename .status

/-- A store or archive operation as part of an engine operation. -/
def onStore {α : Type} (x : Action σ StoreError α) : Action σ EngineError α := x.rename .store

def entityOf (routingKey : String) : Action σ EngineError String := do
  match ← onStore (Store.getEvent routingKey) with
  | none => .fail (.unknownEvent routingKey)
  | some event =>
    match event.entityId with
    | .ok entity => return entity
    | .error e => .fail (.entity e)

/-- Processes an incoming event at the clock time `now`. The result is the entity while it is in alert.
An event without an entity is dropped. -/
def processEvent (e : Engine) (now : Instant) (event : Event) :
    Action σ EngineError (Option String) := do
  match event.entityId with
  | .error _ => return none
  | .ok entity =>
    let timestamp := event.timestamp.getD now
    let r ← onStatus (e.tracker.process entity event.routingKey ⟨event.state, timestamp⟩)
    let _ ← onStore <| e.archive.process now
      { event with timestamp := some timestamp, status := some r.value }
    return if event.isAlert then some entity else none

/-- The store after the live event of a resolved record followed it, if it could. -/
def follow (r : StatusRecord) (s : σ) : σ :=
  match r.routingKey with
  | none => s
  | some rk => ((Archive.setStatus rk r.value).runOn s).2

/-- Resolves one record of a sweep. -/
def sweepOne (e : Engine) (now : Instant) (acc : SweepReport × σ) (entity : String) : SweepReport × σ :=
  match (e.tracker.expire entity now).runOn acc.2 with
  | (.error _, s) => ({ acc.1 with failed := acc.1.failed + 1 }, s)
  | (.ok none, s) => (acc.1, s)
  | (.ok (some r), s) => ({ acc.1 with resolved := acc.1.resolved ++ [entity] }, follow r s)

/-- Resolves the records that are stealthy or flapping for too long at `now`. A record that fails is
counted and does not stop the others. -/
def sweep (e : Engine) (now : Instant) (s : σ) : SweepReport × σ :=
  match (e.tracker.findExpired now).runOn s with
  | (.error _, s) => (.empty, s)
  | (.ok found, s) =>
    (found.map Prod.fst).foldl (e.sweepOne now) ({ SweepReport.empty with examined := found.length }, s)

def cancel (routingKey : String) (cancel : Remark) : Action σ EngineError StatusRecord := do
  let entity ← entityOf routingKey
  let r ← onStatus (Tracker.cancel entity cancel.timestamp)
  onStore (Archive.markCanceled routingKey cancel)
  return r

def uncancel (routingKey : String) (timestamp : Instant) : Action σ EngineError StatusRecord := do
  let entity ← entityOf routingKey
  let r ← onStatus (Tracker.uncancel entity timestamp)
  onStore (Archive.markUncanceled routingKey r.value)
  return r

def acknowledge (routingKey : String) (ack : Remark) : Action σ EngineError Unit := do
  let _ ← entityOf routingKey
  onStore (Archive.acknowledge routingKey ack)

def removeAck (routingKey : String) : Action σ EngineError Unit := do
  let _ ← entityOf routingKey
  onStore (Archive.removeAck routingKey)

def status (entity : String) : Action σ EngineError (Option StatusRecord) :=
  onStatus (Tracker.getStatus entity)

def event (routingKey : String) : Action σ EngineError (Option Event) :=
  onStore (Store.getEvent routingKey)

def history (routingKey : String) : Action σ EngineError (List LogEntry) :=
  onStore (Store.getLog routingKey)

end Engine
end AlertStatus
