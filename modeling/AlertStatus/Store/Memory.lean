import AlertStatus.Data.ByTime
import AlertStatus.Store.Basic

/-!
# The store in memory

Records, events and log entries are kept as values. No operation fails except for a key that is missing
or already taken, or an update that would give a field the wrong type.
-/

set_option autoImplicit false

namespace AlertStatus

/-- A store that keeps its contents as values, the log in order of insertion. -/
structure MemoryStore where
  statuses : SortedMap StatusRecord
  events : SortedMap Event
  log : List LogEntry
deriving DecidableEq

namespace MemoryStore

def empty : MemoryStore := ⟨SortedMap.empty, SortedMap.empty, []⟩

/-- The records that outlast the given times, in order of their entities. -/
def expired (s : MemoryStore) (stealthyBefore flappingBefore : Instant) : List (String × StatusRecord) :=
  s.statuses.entries.filter fun e => e.2.outlasts stealthyBefore flappingBefore

/-- The live events after a partial update of one of them. -/
def updateEvent (s : MemoryStore) (routingKey : String) (change : Fields) :
    Except StoreError MemoryStore :=
  match s.events.get? routingKey with
  | none => .error .notFound
  | some e =>
    match e.update? change with
    | none => .error .encoding
    | some e' => .ok { s with events := s.events.insert routingKey e' }

/-- The log after one more entry. -/
def appendLog (s : MemoryStore) (entry : LogEntry) : Except StoreError MemoryStore :=
  if s.log.any fun l => l.id = entry.id then .error (.duplicate entry.id)
  else .ok { s with log := s.log ++ [entry] }

/-- The entries of a routing key, oldest first. -/
def logOf (s : MemoryStore) (routingKey : String) : List LogEntry :=
  orderByTime LogEntry.timestamp (s.log.filter fun l => l.routingKey = routingKey)

end MemoryStore

instance : Store MemoryStore where
  getStatus id := .look fun s => s.statuses.get? id
  putStatus id r := .change fun s => { s with statuses := s.statuses.insert id r }
  expiredStatuses stealthyBefore flappingBefore :=
    .look fun s => s.expired stealthyBefore flappingBefore
  getEvent rk := .look fun s => s.events.get? rk
  putEvent rk e := .change fun s => { s with events := s.events.insert rk e }
  updateEvent rk change := .become fun s => s.updateEvent rk change
  appendLog entry := .become fun s => s.appendLog entry
  getLog rk := .look fun s => s.logOf rk

end AlertStatus
