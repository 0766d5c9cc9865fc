import AlertStatus.Status.Basic

/-!
# Events

A check event names its source (connector, component, resource), the state that was found, and what is
derived from it over time. The same type serves for incoming events, for the live record of a routing
key and for the copies in the log. Fields that the engine does not know are kept as they are.
-/

set_option autoImplicit false

namespace AlertStatus

/-- A remark of an operator on a live event: an acknowledgement or a cancellation. -/
structure Remark where
  author : String
  comment : Option String
  timestamp : Instant
deriving DecidableEq

namespace Remark

def toJson (r : Remark) : Json :=
  .object <| presentFields
    [("author", some (.str r.author)),
     ("comment", r.comment.map .str),
     ("timestamp", some (.ofInstant r.timestamp))]

/-- The fields of a remark, in the order in which a list gives them. -/
def layout : List Screen.Field :=
  [.needed "author" .str, .free "comment" (.nullable .str), .needed "timestamp" .instant]

def ofJson? (v : Json) : Option Remark := do
  let f ← v.structureFields? (layout.map Screen.Field.name)
  let author ← f.required "author" Json.str?
  let comment ← f.optional "comment" Json.str?
  let timestamp ← f.required "timestamp" Json.instant?
  some { author, comment, timestamp }

instance : Readable Remark := ⟨Screen.structure? layout, ofJson?⟩

end Remark

/-- The names of the fields that the engine knows. -/
def eventFieldNames : List String :=
  ["rk", "connector", "connector_name", "event_type", "source_type", "component", "resource", "state",
   "state_type", "timestamp", "output", "long_output", "status", "previous_state",
   "last_state_change", "previous_state_change_ts", "ack", "cancel", "ticket", "ticket_date",
   "ticket_declared_author", "ticket_declared_date", "keep_state", "change_state_output"]

/-- Fields of an event that the engine does not know. -/
structure ExtraFields where
  fields : Fields
  unknown : ∀ e ∈ fields.entries, e.1 ∉ eventFieldNames
deriving DecidableEq

namespace ExtraFields

def none : ExtraFields := ⟨SortedMap.empty, by intro e he; cases he⟩

/-- The fields of `f` that the engine does not know. -/
def of (f : Fields) : ExtraFields where
  fields := f.filter fun k _ => k ∉ eventFieldNames
  unknown := by
    intro e he
    have := (List.mem_filter.mp he).2
    simpa using this

end ExtraFields

/-- A check event with the bookkeeping derived from it. -/
structure Event where
  rk : Option String
  connector : String
  connectorName : String
  eventType : String
  sourceType : String
  component : String
  resource : Option String
  state : CheckState
  stateType : CheckState
  timestamp : Option Instant
  output : Option String
  longOutput : Option String
  status : Option Status
  previousState : Option CheckState
  lastStateChange : Option Instant
  previousStateChange : Option Instant
  ack : Option Remark
  cancel : Option Remark
  ticket : Option String
  ticketDate : Option Instant
  ticketAuthor : Option String
  ticketDeclared : Option Instant
  /-- Set to pin the displayed state until the next healthy check. -/
  keepState : Option Bool
  changeStateOutput : Option String
  extra : ExtraFields
deriving DecidableEq

namespace Event

def blank : Event where
  rk := none
  connector := ""
  connectorName := ""
  eventType := ""
  sourceType := ""
  component := ""
  resource := none
  state := .ok
  stateType := ⟨1, by decide, by decide⟩
  timestamp := none
  output := none
  longOutput := none
  status := none
  previousState := none
  lastStateChange := none
  previousStateChange := none
  ack := none
  cancel := none
  ticket := none
  ticketDate := none
  ticketAuthor := none
  ticketDeclared := none
  keepState := none
  changeStateOutput := none
  extra := .none

/-- The routing key: the explicit one, or else the source fields joined by dots. -/
def routingKey (e : Event) : String :=
  match e.rk with
  | some rk => rk
  | none =>
    let source := String.intercalate "."
      [e.connector, e.connectorName, e.eventType, e.sourceType, e.component]
    if e.sourceType = "resource" then source ++ "." ++ e.resource.getD "" else source

def isAlert (e : Event) : Bool := e.state ≠ .ok

end Event

/-- A copy of an event, taken when its state changed. -/
structure LogEntry where
  id : String
  routingKey : String
  timestamp : Instant
  event : Event
deriving DecidableEq

/-- The entry for an event; its id joins routing key and time. -/
def LogEntry.of (routingKey : String) (timestamp : Instant) (event : Event) : LogEntry where
  id := routingKey ++ "." ++ toString timestamp.val
  routingKey := routingKey
  timestamp := timestamp
  event := event

end AlertStatus
