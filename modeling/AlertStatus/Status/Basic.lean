import AlertStatus.Json.Reading

/-!
# Statuses and status records

A status says how stable an entity is. The status record of an entity holds its status and what the
status machine remembers: the last check state and when it changed, the start of the current alert, the
start of a quick recovery, and the times at which the state oscillated.
-/

set_option autoImplicit false

namespace AlertStatus

/-- How stable an entity is. -/
inductive Status where
  | off
  | ongoing
  | stealthy
  | flapping
  | canceled
deriving DecidableEq

namespace Status

/-- All statuses in order of their codes. -/
def all : List Status := [.off, .ongoing, .stealthy, .flapping, .canceled]

/-- The code under which a status is stored and exchanged. -/
def code : Status → Code
  | .off => ⟨0, by decide, by decide⟩
  | .ongoing => ⟨1, by decide, by decide⟩
  | .stealthy => ⟨2, by decide, by decide⟩
  | .flapping => ⟨3, by decide, by decide⟩
  | .canceled => ⟨4, by decide, by decide⟩

def name : Status → String
  | .off => "off"
  | .ongoing => "ongoing"
  | .stealthy => "stealthy"
  | .flapping => "flapping"
  | .canceled => "canceled"

def ofCode? (c : Code) : Option Status := all.find? fun s => s.code = c

theorem ofCode?_code (s : Status) : ofCode? s.code = some s := by
  cases s <;> rfl

/-- Why `c` is not a status. -/
def unknownCode (c : Code) : String := "unknown status code " ++ toString c.val

def codeJson (c : Code) : Json :=
  .num (.int ⟨c.val, by have := c.lo_le; omega, by have := c.le_hi; omega⟩)

def toJson (s : Status) : Json := codeJson s.code

def ofJson? (v : Json) : Option Status := (v.int? 0 255).bind ofCode?

/-- Lets through the codes of statuses. -/
def screen : Screen := Screen.scalar fun v => (ofJson? v).isSome

end Status

namespace Json

def ofInstant (t : Instant) : Json :=
  .num (.int ⟨t.val, t.lo_le, by have := t.le_hi; omega⟩)

def ofCheckState (s : CheckState) : Json :=
  .num (.int ⟨s.val, by have := s.lo_le; omega, by have := s.le_hi; omega⟩)

end Json

def presentFields (l : List (String × Option Json)) : List (String × Json) :=
  l.filterMap fun e => e.2.map fun v => (e.1, v)

structure StatusRecord where
  value : Status
  state : CheckState
  /-- When the status was last computed. -/
  timestamp : Instant
  lastStateChange : Instant
  pendingTime : Option Instant
  /-- Start of the alert from which the entity recovered quickly. -/
  stealthyTime : Option Instant
  /-- Times of the oscillations, oldest first. -/
  flappingTimes : List Instant
  /-- The event that was processed last for the entity. -/
  routingKey : Option String
deriving DecidableEq

namespace StatusRecord

/-- The record of an entity that is seen for the first time. -/
def first (state : CheckState) (timestamp : Instant) : StatusRecord where
  value := if state = .ok then .off else .ongoing
  state := state
  timestamp := timestamp
  lastStateChange := timestamp
  pendingTime := if state = .ok then none else some timestamp
  stealthyTime := none
  flappingTimes := []
  routingKey := none

def oldestFlap (r : StatusRecord) : Option Instant := r.flappingTimes.head?

/-- Whether the record is stealthy since before `stealthyBefore`, or flapping with its oldest
oscillation before `flappingBefore`. -/
def outlasts (r : StatusRecord) (stealthyBefore flappingBefore : Instant) : Bool :=
  match r.value with
  | .stealthy => r.stealthyTime.any fun t => t < stealthyBefore
  | .flapping => r.oldestFlap.any fun t => t < flappingBefore
  | _ => false

def toFields (r : StatusRecord) : Fields :=
  SortedMap.ofList <| presentFields
    [("value", some r.value.toJson),
     ("state", some (.ofCheckState r.state)),
     ("timestamp", some (.ofInstant r.timestamp)),
     ("last_state_change", some (.ofInstant r.lastStateChange)),
     ("pending_time", r.pendingTime.map .ofInstant),
     ("stealthy_time", r.stealthyTime.map .ofInstant),
     ("flapping_times",
      if r.flappingTimes = [] then none else some (.arr (r.flappingTimes.map .ofInstant))),
     ("routing_key", r.routingKey.map .str)]

def toJson (r : StatusRecord) : Json := .ofFields r.toFields

/-- The fields of a record, in the order in which a list gives them. -/
def layout : List Screen.Field :=
  [.needed "value" Status.screen,
   .needed "state" .checkState,
   .needed "timestamp" .instant,
   .needed "last_state_change" .instant,
   .free "pending_time" (.nullable .instant),
   .free "stealthy_time" (.nullable .instant),
   .free "flapping_times" (.list .instant),
   .free "routing_key" (.nullable .str)]

def ofFields? (f : Fields) : Option StatusRecord := do
  let value ← f.required "value" Status.ofJson?
  let state ← f.required "state" Json.checkState?
  let timestamp ← f.required "timestamp" Json.instant?
  let lastStateChange ← f.required "last_state_change" Json.instant?
  let pendingTime ← f.optional "pending_time" Json.instant?
  let stealthyTime ← f.optional "stealthy_time" Json.instant?
  let flappingTimes ← f.withDefault "flapping_times" [] fun v =>
    v.items?.bind fun items => items.mapM Json.instant?
  let routingKey ← f.optional "routing_key" Json.str?
  some { value, state, timestamp, lastStateChange, pendingTime, stealthyTime, flappingTimes,
         routingKey }

def ofJson? (v : Json) : Option StatusRecord :=
  (v.structureFields? (layout.map Screen.Field.name)).bind ofFields?

instance : Readable StatusRecord := ⟨Screen.structure? layout, ofJson?⟩

end StatusRecord
end AlertStatus
