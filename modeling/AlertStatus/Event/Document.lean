import AlertStatus.Event.Basic

/-!
# Documents of events

An event is written as an object: its known fields that are present, and beside them the unknown ones.
It is read from an object only; missing texts are empty, a missing state is healthy, and every other
known field may be missing or null. A partial update of an event is applied to its document.
-/

set_option autoImplicit false

namespace AlertStatus
namespace Event

/-- The known fields of an event with their values. -/
def knownFields (e : Event) : List (String × Option Json) :=
  [("rk", e.rk.map .str),
   ("connector", some (.str e.connector)),
   ("connector_name", some (.str e.connectorName)),
   ("event_type", some (.str e.eventType)),
   ("source_type", some (.str e.sourceType)),
   ("component", some (.str e.component)),
   ("resource", e.resource.map .str),
   ("state", some (.ofCheckState e.state)),
   ("state_type", some (.ofCheckState e.stateType)),
   ("timestamp", e.timestamp.map .ofInstant),
   ("output", e.output.map .str),
   ("long_output", e.longOutput.map .str),
   ("status", e.status.map Status.toJson),
   ("previous_state", e.previousState.map .ofCheckState),
   ("last_state_change", e.lastStateChange.map .ofInstant),
   ("previous_state_change_ts", e.previousStateChange.map .ofInstant),
   ("ack", e.ack.map Remark.toJson),
   ("cancel", e.cancel.map Remark.toJson),
   ("ticket", e.ticket.map .str),
   ("ticket_date", e.ticketDate.map .ofInstant),
   ("ticket_declared_author", e.ticketAuthor.map .str),
   ("ticket_declared_date", e.ticketDeclared.map .ofInstant),
   ("keep_state", e.keepState.map .bool),
   ("change_state_output", e.changeStateOutput.map .str)]

/-- The fields of an event's document. -/
def toFields (e : Event) : Fields :=
  (presentFields e.knownFields).foldl (fun f m => f.insert m.1 m.2) e.extra.fields

def toJson (e : Event) : Json := .ofFields e.toFields

def ofFields? (f : Fields) : Option Event := do
  let rk ← f.optional "rk" Json.str?
  let connector ← f.withDefault "connector" "" Json.str?
  let connectorName ← f.withDefault "connector_name" "" Json.str?
  let eventType ← f.withDefault "event_type" "" Json.str?
  let sourceType ← f.withDefault "source_type" "" Json.str?
  let component ← f.withDefault "component" "" Json.str?
  let resource ← f.optional "resource" Json.str?
  let state ← f.withDefault "state" blank.state Json.checkState?
  let stateType ← f.withDefault "state_type" blank.stateType Json.checkState?
  let timestamp ← f.optional "timestamp" Json.instant?
  let output ← f.optional "output" Json.str?
  let longOutput ← f.optional "long_output" Json.str?
  let status ← f.optional "status" Status.ofJson?
  let previousState ← f.optional "previous_state" Json.checkState?
  let lastStateChange ← f.optional "last_state_change" Json.instant?
  let previousStateChange ← f.optional "previous_state_change_ts" Json.instant?
  let ack ← f.optional "ack" Remark.ofJson?
  let cancel ← f.optional "cancel" Remark.ofJson?
  let ticket ← f.optional "ticket" Json.str?
  let ticketDate ← f.optional "ticket_date" Json.instant?
  let ticketAuthor ← f.optional "ticket_declared_author" Json.str?
  let ticketDeclared ← f.optional "ticket_declared_date" Json.instant?
  let keepState ← f.optional "keep_state" Json.bool?
  let changeStateOutput ← f.optional "change_state_output" Json.str?
  some { rk, connector, connectorName, eventType, sourceType, component, resource, state, stateType,
         timestamp, output, longOutput, status, previousState, lastStateChange, previousStateChange,
         ack, cancel, ticket, ticketDate, ticketAuthor, ticketDeclared, keepState, changeStateOutput,
         extra := .of f }

def ofJson? (v : Json) : Option Event := v.fields?.bind ofFields?

/-- The known fields with what they may hold. -/
def layout : List Screen.Field :=
  let remark := Screen.nullable (Readable.screen Remark)
  [.free "rk" (.nullable .str),
   .free "connector" .str,
   .free "connector_name" .str,
   .free "event_type" .str,
   .free "source_type" .str,
   .free "component" .str,
   .free "resource" (.nullable .str),
   .free "state" .checkState,
   .free "state_type" .checkState,
   .free "timestamp" (.nullable .instant),
   .free "output" (.nullable .str),
   .free "long_output" (.nullable .str),
   .free "status" (.nullable Status.screen),
   .free "previous_state" (.nullable .checkState),
   .free "last_state_change" (.nullable .instant),
   .free "previous_state_change_ts" (.nullable .instant),
   .free "ack" remark,
   .free "cancel" remark,
   .free "ticket" (.nullable .str),
   .free "ticket_date" (.nullable .instant),
   .free "ticket_declared_author" (.nullable .str),
   .free "ticket_declared_date" (.nullable .instant),
   .free "keep_state" (.nullable .flag),
   .free "change_state_output" (.nullable .str)]

instance : Readable Event where
  screen := Screen.object layout (.keep (.anything (Json.depthLimit - 1)))
  ofJson? := ofJson?

/-- Puts the fields of `change` in place of those of `f`; a null takes its field away. -/
def mergeFields (f change : Fields) : Fields :=
  change.entries.foldl (fun f m => if m.2 = .null then f.erase m.1 else f.insert m.1 m.2) f

/-- The event after a partial update, or `none` when a field of it would have the wrong type. -/
def update? (e : Event) (change : Fields) : Option Event := ofFields? (mergeFields e.toFields change)

end Event

namespace LogEntry

def toJson (l : LogEntry) : Json :=
  .object
    [("id", .str l.id),
     ("routing_key", .str l.routingKey),
     ("timestamp", .ofInstant l.timestamp),
     ("event", l.event.toJson)]

/-- The names of the fields of an entry, in the order in which a list gives them. -/
def fieldNames : List String := ["id", "routing_key", "timestamp", "event"]

def ofJson? (v : Json) : Option LogEntry := do
  let f ← v.structureFields? fieldNames
  let id ← f.required "id" Json.str?
  let routingKey ← f.required "routing_key" Json.str?
  let timestamp ← f.required "timestamp" Json.instant?
  let event ← f.required "event" Event.ofJson?
  some { id, routingKey, timestamp, event }

end LogEntry
end AlertStatus
