import AlertStatus.Store.Memory

/-!
# The store in tables

Three tables of rows hold the contents as document texts. The row of a status also has the columns that
the expiry query reads; a missing column satisfies no comparison. A text that cannot be read makes the
operation that needs it fail, also when it is one row of many.
-/

set_option autoImplicit false

namespace AlertStatus

structure StatusRow where
  value : Int
  stealthyTime : Option Instant
  oldestFlap : Option Instant
  doc : String
deriving DecidableEq

structure LogRow where
  id : String
  routingKey : String
  timestamp : Instant
  doc : String
deriving DecidableEq

/-- A store that keeps its contents as rows, those of the log in order of insertion. -/
structure TableStore where
  statuses : SortedMap StatusRow
  events : SortedMap String
  log : List LogRow
deriving DecidableEq

namespace StatusRow

def of (r : StatusRecord) : StatusRow where
  value := r.value.code.val
  stealthyTime := r.stealthyTime
  oldestFlap := r.oldestFlap
  doc := r.toJson.text

/-- Whether the expiry query selects the row. -/
def outlasts (row : StatusRow) (stealthyBefore flappingBefore : Instant) : Bool :=
  (row.value = Status.stealthy.code.val && row.stealthyTime.any fun t => t < stealthyBefore) ||
  (row.value = Status.flapping.code.val && row.oldestFlap.any fun t => t < flappingBefore)

end StatusRow

namespace TableStore

def empty : TableStore := ⟨SortedMap.empty, SortedMap.empty, []⟩

def decode {α : Type} [Readable α] (doc : String) : Except StoreError α :=
  match readText α doc with
  | .ok a => .ok a
  | .error _ => .error .unreadable

/-- The value of a text that may be missing. -/
def decodeOption {α : Type} [Readable α] (doc : Option String) : Except StoreError (Option α) :=
  match doc with
  | none => .ok none
  | some d => (decode d).map some

/-- The rows that the expiry query selects, decoded, in order of their entities. -/
def expired (s : TableStore) (stealthyBefore flappingBefore : Instant) :
    Except StoreError (List (String × StatusRecord)) :=
  (s.statuses.entries.filter fun e => e.2.outlasts stealthyBefore flappingBefore).mapM fun e =>
    (decode e.2.doc).map fun r => (e.1, r)

/-- The tables after a partial update of a live event. -/
def updateEvent (s : TableStore) (routingKey : String) (change : Fields) :
    Except StoreError TableStore :=
  match s.events.get? routingKey with
  | none => .error .notFound
  | some doc =>
    match (decode doc : Except StoreError Event) with
    | .error e => .error e
    | .ok e =>
      match e.update? change with
      | none => .error .encoding
      | some e' => .ok { s with events := s.events.insert routingKey e'.toJson.text }

/-- The tables after one more log entry. -/
def appendLog (s : TableStore) (entry : LogEntry) : Except StoreError TableStore :=
  if s.log.any fun l => l.id = entry.id then .error (.duplicate entry.id)
  else
    let row : LogRow := ⟨entry.id, entry.routingKey, entry.timestamp, entry.event.toJson.text⟩
    .ok { s with log := s.log ++ [row] }

/-- The entries of a routing key, decoded, oldest first. -/
def logOf (s : TableStore) (routingKey : String) : Except StoreError (List LogEntry) :=
  (orderByTime LogRow.timestamp (s.log.filter fun l => l.routingKey = routingKey)).mapM fun row =>
    (decode row.doc).map fun e => ⟨row.id, routingKey, row.timestamp, e⟩

/-! ## Rows as they are -/

def putStatusRow (s : TableStore) (entity : String) (row : StatusRow) : TableStore :=
  { s with statuses := s.statuses.insert entity row }

def putEventRow (s : TableStore) (routingKey doc : String) : TableStore :=
  { s with events := s.events.insert routingKey doc }

/-- Sets a row of the log table. A row that takes the place of another one is the latest. -/
def putLogRow (s : TableStore) (row : LogRow) : TableStore :=
  { s with log := (s.log.filter fun l => l.id ≠ row.id) ++ [row] }

end TableStore

instance : Store TableStore where
  getStatus id :=
    .examine fun s => TableStore.decodeOption ((s.statuses.get? id).map StatusRow.doc)
  putStatus id r := .change fun s => { s with statuses := s.statuses.insert id (.of r) }
  expiredStatuses stealthyBefore flappingBefore :=
    .examine fun s => s.expired stealthyBefore flappingBefore
  getEvent rk := .examine fun s => TableStore.decodeOption (s.events.get? rk)
  putEvent rk e := .change fun s => { s with events := s.events.insert rk e.toJson.text }
  updateEvent rk change := .become fun s => s.updateEvent rk change
  appendLog entry := .become fun s => s.appendLog entry
  getLog rk := .examine fun s => s.logOf rk

end AlertStatus
