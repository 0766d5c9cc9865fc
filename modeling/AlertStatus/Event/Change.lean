import AlertStatus.Event.Document

/-!
# What an event changes in its live record

An incoming event is first stamped with what its live record remembers: since when state and state type
are the same, which state was before, and when the run before the last change between healthy and alert
began. Then the fields in which it differs from the live record are gathered, under the rules for the
fields that operators set:

- an acknowledgement and the ticket stay until the entity is off, a cancellation until it is off or
  ongoing;
- a pinned state stays, with its output, until the next healthy check.
-/

set_option autoImplicit false

namespace AlertStatus
namespace Event

def ticketFields : List String :=
  ["ticket", "ticket_date", "ticket_declared_author", "ticket_declared_date"]

/-- The event with its own routing key, and with a time. -/
def identified (e : Event) (now : Instant) : Event :=
  { e with rk := some e.routingKey, timestamp := some (e.timestamp.getD now) }

/-- The event with what its live record `prior` remembers, at the event's time. -/
def stamped (e prior : Event) (timestamp : Instant) : Event :=
  let since := prior.lastStateChange.getD timestamp
  let e := { e with lastStateChange := some since }
  if e.state = prior.state ∧ e.stateType = prior.stateType then e
  else
    { e with
      previousState := if e.state = prior.state then e.previousState else some prior.state
      previousStateChange :=
        if e.state = .ok ↔ prior.state = .ok then e.previousStateChange else some since
      lastStateChange := some timestamp }

/-- The status of an event; one that names none is off or ongoing by its state. -/
def effectiveStatus (e : Event) : Status :=
  e.status.getD (if e.isAlert then .ongoing else .off)

/-- The fields of `e` that are not excluded and differ from those of `prior`. -/
def differences (excluded : List String) (e prior : Event) : Fields :=
  let old := prior.toFields
  e.toFields.filter fun k v => k ∉ excluded && !(old.get? k).any fun w => w.same v

/-- Takes a field away from the live record when `drop` is set, and leaves it alone otherwise. -/
def dropOrLeave (change : Fields) (name : String) (drop : Bool) : Fields :=
  if drop then change.insert name .null else change.erase name

def changeAck (e prior : Event) (change : Fields) : Fields :=
  if prior.ack.isSome then dropOrLeave change "ack" (e.effectiveStatus = .off) else change

def changeCancel (e prior : Event) (change : Fields) : Fields :=
  if prior.cancel.isSome then
    dropOrLeave change "cancel" (e.effectiveStatus = .off || e.effectiveStatus = .ongoing)
  else change

def changeTicket (e prior : Event) (change : Fields) : Fields :=
  if e.effectiveStatus = .off then
    (ticketFields.filter prior.toFields.contains).foldl (fun f k => f.insert k .null) change
  else change

def changePinned (e prior : Event) (change : Fields) : Fields :=
  let pinned : Bool := prior.keepState = some true
  let reset := pinned && !e.isAlert
  let change := if reset then change.insert "keep_state" (.bool false) else change
  match e.keepState with
  | some _ =>
    (change.insert "change_state_output" (.str (e.output.getD ""))).insert "output"
      (.str (prior.output.getD ""))
  | none =>
    if pinned && !reset then (change.insert "state" (.ofCheckState prior.state)).erase "output"
    else change

/-- The partial update of the live record `prior` that the stamped event `e` makes. -/
def changeOf (excluded : List String) (e prior : Event) : Fields :=
  changePinned e prior <| changeTicket e prior <| changeCancel e prior <| changeAck e prior <|
    differences excluded e prior

end Event
end AlertStatus
