import AlertStatus.Proofs.Data.Maps
import AlertStatus.Proofs.Status.Document
import AlertStatus.Status.Tracker
import AlertStatus.Store.Backend

/-!
# The status records of a store

Both kinds of store are looked at through `Backend.recordAt`, what the look-up of an entity's record
gives. A write changes it at one entity, to the record that was written: in memory because the
record is kept as it is, in tables because it is read back from its text. Nothing that is done with
events or the log touches the status table (`Backend.SameStatuses`).

Where a whole table of records matters, `Backend.Shows` relates the store to it. Rows that were not
written by the store itself (of some other shape, or with columns that do not go with their text)
satisfy neither.
-/

set_option autoImplicit false

namespace AlertStatus

theorem TableStore.decode_of (r : StatusRecord) :
    (TableStore.decode (StatusRow.of r).doc : Except StoreError StatusRecord) = .ok r := by
  rw [TableStore.decode, StatusRow.of, r.readText_toJson]

/-- The columns that the expiry query reads say what the record says. -/
theorem StatusRow.outlasts_of (r : StatusRecord) (stealthyBefore flappingBefore : Instant) :
    (StatusRow.of r).outlasts stealthyBefore flappingBefore =
      r.outlasts stealthyBefore flappingBefore := by
  unfold StatusRow.outlasts StatusRow.of StatusRecord.outlasts
  cases r.value with
  | stealthy => exact Bool.or_false _
  | flapping => rfl
  | off | ongoing | canceled => rfl

namespace Backend

/-! ## 1. The record of one entity -/

/-- What the look-up of an entity's record gives. -/
def recordAt (b : Backend) (id : String) : Except StoreError (Option StatusRecord) :=
  ((Store.getStatus id).runOn b).1

theorem runOn_getStatus (b : Backend) (id : String) :
    (Store.getStatus id).runOn b = (b.recordAt id, b) := by
  cases b <;> rfl

/-- **A written record is the one that is found**, and no other entity is touched. -/
theorem recordAt_putStatus (b : Backend) (id : String) (r : StatusRecord) (j : String) :
    (((Store.putStatus id r).runOn b).2).recordAt j =
      if j = id then .ok (some r) else b.recordAt j := by
  cases b with
  | memory s =>
    show Except.ok ((s.statuses.insert id r).get? j) = _
    rw [SortedMap.get?_insert]
    split <;> rfl
  | tables s =>
    show TableStore.decodeOption (((s.statuses.insert id (.of r)).get? j).map StatusRow.doc) = _
    rw [SortedMap.get?_insert]
    split
    · show (TableStore.decode (StatusRow.of r).doc).map some = _
      rw [TableStore.decode_of]
      rfl
    · rfl

theorem runOn_putStatus (b : Backend) (id : String) (r : StatusRecord) :
    ((Store.putStatus id r).runOn b).1 = .ok () := by
  cases b <;> rfl

/-- The stores are of one kind and have the same status table. -/
def SameStatuses : Backend → Backend → Prop
  | .memory s, .memory s' => s'.statuses = s.statuses
  | .tables s, .tables s' => s'.statuses = s.statuses
  | _, _ => False

theorem SameStatuses.refl (b : Backend) : b.SameStatuses b := by
  cases b <;> rfl

theorem SameStatuses.recordAt {b b' : Backend} (h : b.SameStatuses b') (id : String) :
    b'.recordAt id = b.recordAt id := by
  match b, b', h with
  | .memory s, .memory s', h =>
    show Except.ok (s'.statuses.get? id) = _
    rw [show s'.statuses = s.statuses from h]
    rfl
  | .tables s, .tables s', h =>
    show TableStore.decodeOption ((s'.statuses.get? id).map StatusRow.doc) = _
    rw [show s'.statuses = s.statuses from h]
    rfl

theorem sameStatuses_putEvent (b : Backend) (rk : String) (e : Event) :
    b.SameStatuses ((Store.putEvent rk e).runOn b).2 := by
  cases b <;> rfl

theorem sameStatuses_updateEvent (b : Backend) (rk : String) (change : Fields) :
    b.SameStatuses ((Store.updateEvent rk change).runOn b).2 := by
  cases b with
  | memory s =>
    show (((Action.become fun s => s.updateEvent rk change).runOn s).2 : MemoryStore).statuses = _
    rw [Action.runOn_become, MemoryStore.updateEvent]
    cases s.events.get? rk with
    | none => rfl
    | some e =>
      dsimp only
      cases e.update? change <;> rfl
  | tables s =>
    show (((Action.become fun s => s.updateEvent rk change).runOn s).2 : TableStore).statuses = _
    rw [Action.runOn_become, TableStore.updateEvent]
    cases s.events.get? rk with
    | none => rfl
    | some doc =>
      dsimp only
      cases (TableStore.decode doc : Except StoreError Event) with
      | error e => rfl
      | ok e =>
        dsimp only
        cases e.update? change <;> rfl

theorem sameStatuses_appendLog (b : Backend) (entry : LogEntry) :
    b.SameStatuses ((Store.appendLog entry).runOn b).2 := by
  cases b with
  | memory s =>
    show (((Action.become fun s => s.appendLog entry).runOn s).2 : MemoryStore).statuses = _
    rw [Action.runOn_become, MemoryStore.appendLog]
    by_cases hdup : (s.log.any fun l => l.id = entry.id) = true
    · rw [if_pos hdup]
    · rw [if_neg hdup]
  | tables s =>
    show (((Action.become fun s => s.appendLog entry).runOn s).2 : TableStore).statuses = _
    rw [Action.runOn_become, TableStore.appendLog]
    by_cases hdup : (s.log.any fun l => l.id = entry.id) = true
    · rw [if_pos hdup]
    · rw [if_neg hdup]

/-- Looking for expired records leaves the store, also when one of them cannot be read. -/
theorem snd_runOn_findExpired (t : Tracker) (now : Instant) (b : Backend) :
    ((t.findExpired now).runOn b).2 = b := by
  cases b <;> rfl

theorem runOn_trackerGet (b : Backend) (id : String) :
    (Tracker.getStatus id).runOn b = ((b.recordAt id).mapError (Tracker.readError id), b) := by
  rw [Tracker.getStatus, Action.runOn_rename, runOn_getStatus]

theorem runOn_trackerGet_of_ok {b : Backend} {id : String} {o : Option StatusRecord}
    (h : b.recordAt id = .ok o) : (Tracker.getStatus id).runOn b = (.ok o, b) := by
  rw [runOn_trackerGet, h]
  rfl

theorem runOn_trackerPut (b : Backend) (id : String) (r : StatusRecord) :
    (Tracker.putStatus id r).runOn b = (.ok (), ((Store.putStatus id r).runOn b).2) := by
  rw [Tracker.putStatus, Action.runOn_rename, runOn_putStatus]
  rfl

theorem runOn_trackerKeep (b : Backend) (id rk : String) (r : StatusRecord) :
    (Tracker.process.keep id rk r).runOn b =
      (.ok { r with routingKey := some rk },
        ((Store.putStatus id { r with routingKey := some rk }).runOn b).2) := by
  unfold Tracker.process.keep
  rw [Action.runOn_bind, runOn_trackerPut]
  rfl

/-! ## 2. The table of all records -/

/-- The store holds the given records: as they are in memory, as the rows that were written for them in
tables. Nothing is said of events.

In memory this holds of some records whatever the store has been through (`shows_memory`). In tables it
leaves out rows that something else wrote, whose texts may not be records. -/
def Shows (b : Backend) (m : SortedMap StatusRecord) : Prop :=
  match b with
  | .memory s => s.statuses = m
  | .tables s => s.statuses = m.map StatusRow.of

variable {b : Backend} {m : SortedMap StatusRecord}

theorem shows_memory (s : MemoryStore) : (Backend.memory s).Shows s.statuses := rfl

theorem Shows.recordAt (h : b.Shows m) (id : String) : b.recordAt id = .ok (m.get? id) := by
  cases b with
  | memory s =>
    cases h
    rfl
  | tables s =>
    have hrow : s.statuses.get? id = (m.get? id).map StatusRow.of := by
      rw [show s.statuses = m.map StatusRow.of from h, SortedMap.get?_map]
    show TableStore.decodeOption ((s.statuses.get? id).map StatusRow.doc) = _
    rw [hrow]
    cases m.get? id with
    | none => rfl
    | some r =>
      show (TableStore.decode (StatusRow.of r).doc).map some = _
      rw [TableStore.decode_of]
      rfl

theorem Shows.putStatus (h : b.Shows m) (id : String) (r : StatusRecord) :
    (((Store.putStatus id r).runOn b).2).Shows (m.insert id r) := by
  cases b with
  | memory s =>
    cases h
    rfl
  | tables s =>
    show s.statuses.insert id (.of r) = _
    rw [show s.statuses = m.map StatusRow.of from h, SortedMap.map_insert]

theorem Shows.of_sameStatuses {b' : Backend} (h : b.Shows m) (hs : b.SameStatuses b') :
    b'.Shows m := by
  match b, b', hs with
  | .memory s, .memory s', hs => exact Eq.trans hs h
  | .tables s, .tables s', hs => exact Eq.trans hs h

/-- Rows that were written for records are selected as the records would be, and read back. -/
theorem mapM_decode_rows (l : List (String × StatusRecord)) (stealthyBefore flappingBefore : Instant) :
    ((l.map fun e => (e.1, StatusRow.of e.2)).filter fun e =>
        e.2.outlasts stealthyBefore flappingBefore).mapM
      (fun e => (TableStore.decode e.2.doc : Except StoreError StatusRecord).map fun r => (e.1, r)) =
      .ok (l.filter fun e => e.2.outlasts stealthyBefore flappingBefore) := by
  induction l with
  | nil => rfl
  | cons e l ih =>
    rw [List.map_cons, List.filter_cons, List.filter_cons]
    dsimp only
    rw [StatusRow.outlasts_of]
    split
    · rw [List.mapM_cons, ih]
      dsimp only
      rw [TableStore.decode_of]
      rfl
    · exact ih

/-- **Both kinds of store find the same expired records**, in the same order. In tables all rows are of
the records that are shown (`h`), so none of them fails to be decoded. -/
theorem Shows.runOn_expiredStatuses (h : b.Shows m) (stealthyBefore flappingBefore : Instant) :
    (Store.expiredStatuses stealthyBefore flappingBefore).runOn b =
      (.ok (m.entries.filter fun e => e.2.outlasts stealthyBefore flappingBefore), b) := by
  cases b with
  | memory s =>
    cases h
    rfl
  | tables s =>
    have hrows : s.statuses.entries = m.entries.map fun e => (e.1, StatusRow.of e.2) := by
      rw [show s.statuses = m.map StatusRow.of from h]
      rfl
    show (s.expired stealthyBefore flappingBefore, Backend.tables s) = _
    rw [TableStore.expired, hrows, mapM_decode_rows]

end Backend
end AlertStatus
