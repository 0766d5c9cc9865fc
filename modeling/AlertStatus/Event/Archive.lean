import AlertStatus.Event.Change
import AlertStatus.Store.Basic

/-!
# Live events and their log

The archive merges each event into the live record of its routing key, writing only what differs, and
adds a copy to the log when the state changed. Failing to write the live record is an error; the log is
best effort.
-/

set_option autoImplicit false

namespace AlertStatus

/-- What the archive goes by: the fields that a merge never writes. -/
structure Archive where
  excluded : List String

namespace Archive

variable {σ : Type} [Store σ]

/-- The copy of a stamped event for the log. It carries the acknowledgement of the live record. -/
def logCopy (routingKey : String) (timestamp : Instant) (e prior : Event) : LogEntry :=
  .of routingKey timestamp { e with ack := prior.ack <|> e.ack }

/-- Whether a stamped event goes to the log. -/
def logged (e : Event) : Bool := e.previousState.any fun s => s ≠ e.state

/-- Adds an entry to the log, and tells whether it was added. -/
def tryAppend (entry : LogEntry) : Action σ StoreError Bool := do
  let outcome ← (Store.appendLog entry).attempt
  return outcome.isOk

/-- Merges an event into its live record, at the clock time `now`. The result tells whether a log entry
was added. -/
def process (a : Archive) (now : Instant) (event : Event) : Action σ StoreError Bool := do
  let routingKey := event.routingKey
  let timestamp := event.timestamp.getD now
  let e := event.identified now
  match ← Store.getEvent routingKey with
  | none =>
    Store.putEvent routingKey { e with lastStateChange := some timestamp }
    return false
  | some prior =>
    let e := e.stamped prior timestamp
    let change := e.changeOf a.excluded prior
    unless change.isEmpty do Store.updateEvent routingKey change
    if logged e then tryAppend (logCopy routingKey timestamp e prior) else return false

def acknowledge (routingKey : String) (ack : Remark) : Action σ StoreError Unit :=
  Store.updateEvent routingKey (.ofList [("ack", ack.toJson)])

def removeAck (routingKey : String) : Action σ StoreError Unit :=
  Store.updateEvent routingKey (.ofList [("ack", .null)])

def markCanceled (routingKey : String) (cancel : Remark) : Action σ StoreError Unit :=
  Store.updateEvent routingKey (.ofList [("cancel", cancel.toJson), ("status", Status.canceled.toJson)])

/-- Takes the cancellation away and sets the status. -/
def markUncanceled (routingKey : String) (status : Status) : Action σ StoreError Unit :=
  Store.updateEvent routingKey (.ofList [("cancel", .null), ("status", status.toJson)])

def setStatus (routingKey : String) (status : Status) : Action σ StoreError Unit :=
  Store.updateEvent routingKey (.ofList [("status", status.toJson)])

end Archive
end AlertStatus
