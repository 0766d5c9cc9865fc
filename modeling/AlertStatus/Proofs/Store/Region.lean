import AlertStatus.Proofs.Store.Linked
import AlertStatus.Proofs.Store.Log

/-!
# Regions of a store

A region is some entities and some routing keys: their records, their live events and their part of the
log. Two stores of one kind share a region when they look the same in it, whatever stands outside.

An operation inside the region comes to the same outcome over both stores, and they still share it
(`Region.linked_inside`). An operation outside leaves what the store shares with any other one
(`Region.linked_outside`). The log is the one thing that is not kept apart by keys, since a new entry is
refused when its id was there, under whatever routing key. What keeps it apart is that the id of an entry
says its routing key (`LogEntry.of_id_inj`).
-/

set_option autoImplicit false

namespace AlertStatus

open AlertStatus.Action

/-! ## 1. Views of a store and how operations change them -/

/-- What comes back of an event that is put. -/
def Medium.returned (m : Medium) (e : Event) : Except StoreError (Option Event) :=
  match m with
  | .values => .ok (some e)
  | .texts => TableStore.decodeOption (some e.toJson.text)

namespace Backend

variable {b d : Backend}

/-- Whether an entry of the log has the id. -/
def holdsId (b : Backend) (id : String) : Bool :=
  match b with
  | .memory s => s.log.any fun l => l.id = id
  | .tables s => s.log.any fun l => l.id = id

/-- The part of the log under a routing key, as entries in memory and as rows in tables. -/
def rowsAt (b : Backend) (rk : String) : List LogEntry × List LogRow :=
  match b with
  | .memory s => (s.log.filter fun l => l.routingKey = rk, [])
  | .tables s => ([], s.log.filter fun l => l.routingKey = rk)

/-- The store with one more entry at the end of its log. -/
def addEntry (b : Backend) (entry : LogEntry) : Backend :=
  match b with
  | .memory s => .memory { s with log := s.log ++ [entry] }
  | .tables s => .tables { s with log := s.log ++ [.of entry] }

/-- What the log has under a routing key is settled by its rows there. -/
theorem logAt_of_rowsAt {rk : String} (hm : b.medium = d.medium) (h : b.rowsAt rk = d.rowsAt rk) :
    b.logAt rk = d.logAt rk := by
  match b, d, hm with
  | .memory s, .memory s', _ =>
    have hrows := congrArg Prod.fst h
    show Except.ok (orderByTime _ _) = Except.ok (orderByTime _ _)
    rw [show (s.log.filter fun l => l.routingKey = rk) = _ from hrows]
    rfl
  | .tables s, .tables s', _ =>
    have hrows := congrArg Prod.snd h
    show (orderByTime _ _).mapM _ = (orderByTime _ _).mapM _
    rw [show (s.log.filter fun l => l.routingKey = rk) = _ from hrows]
    rfl

theorem eventAt_put (b : Backend) (rk : String) (e : Event) (j : String) :
    ((Store.putEvent rk e).runOn b).2.eventAt j =
      if j = rk then b.medium.returned e else b.eventAt j := by
  cases b with
  | memory s =>
    show Except.ok ((s.events.insert rk e).get? j) = _
    rw [SortedMap.get?_insert]
    split <;> rfl
  | tables s =>
    show TableStore.decodeOption ((s.events.insert rk e.toJson.text).get? j) = _
    rw [SortedMap.get?_insert]
    split <;> rfl

theorem runOn_appendLog (b : Backend) (entry : LogEntry) :
    (Store.appendLog entry).runOn b =
      if b.holdsId entry.id then (.error (.duplicate entry.id), b) else (.ok (), b.addEntry entry) := by
  cases b with
  | memory s =>
    show (((become fun s : MemoryStore => s.appendLog entry).runOn s).1,
      Backend.memory ((become fun s : MemoryStore => s.appendLog entry).runOn s).2) = _
    rw [runOn_become, MemoryStore.appendLog, holdsId]
    by_cases hdup : (s.log.any fun l => l.id = entry.id) = true
    · rw [if_pos hdup, if_pos hdup]
    · rw [if_neg hdup, if_neg hdup]
      rfl
  | tables s =>
    show (((become fun s : TableStore => s.appendLog entry).runOn s).1,
      Backend.tables ((become fun s : TableStore => s.appendLog entry).runOn s).2) = _
    rw [runOn_become, TableStore.appendLog, holdsId]
    by_cases hdup : (s.log.any fun l => l.id = entry.id) = true
    · rw [if_pos hdup, if_pos hdup]
    · rw [if_neg hdup, if_neg hdup]
      rfl

theorem holdsId_addEntry (b : Backend) (entry : LogEntry) (id : String) :
    (b.addEntry entry).holdsId id = (b.holdsId id || decide (entry.id = id)) := by
  cases b with
  | memory s =>
    show (s.log ++ [entry]).any _ = _
    rw [List.any_append, List.any_cons, List.any_nil, Bool.or_false]
    rfl
  | tables s =>
    show (s.log ++ [LogRow.of entry]).any _ = _
    rw [List.any_append, List.any_cons, List.any_nil, Bool.or_false]
    rfl

/-- The rows under a routing key after one more entry there. -/
def Medium.joined (m : Medium) (rows : List LogEntry × List LogRow) (entry : LogEntry) :
    List LogEntry × List LogRow :=
  match m with
  | .values => (rows.1 ++ [entry], rows.2)
  | .texts => (rows.1, rows.2 ++ [.of entry])

theorem rowsAt_addEntry (b : Backend) (entry : LogEntry) (rk : String) :
    (b.addEntry entry).rowsAt rk =
      if entry.routingKey = rk then Medium.joined b.medium (b.rowsAt rk) entry else b.rowsAt rk := by
  by_cases hrk : entry.routingKey = rk
  · have hrow : decide ((LogRow.of entry).routingKey = rk) = true := decide_eq_true hrk
    rw [if_pos hrk]
    cases b with
    | memory s =>
      show ((s.log ++ [entry]).filter _, _) = _
      rw [List.filter_append, List.filter_singleton, decide_eq_true hrk]
      rfl
    | tables s =>
      show (_, (s.log ++ [LogRow.of entry]).filter _) = _
      rw [List.filter_append, List.filter_singleton, hrow]
      rfl
  · have hrow : decide ((LogRow.of entry).routingKey = rk) = false := decide_eq_false hrk
    rw [if_neg hrk]
    cases b with
    | memory s =>
      show ((s.log ++ [entry]).filter _, _) = _
      rw [List.filter_append, List.filter_singleton, decide_eq_false hrk, cond_false, List.append_nil]
      rfl
    | tables s =>
      show (_, (s.log ++ [LogRow.of entry]).filter _) = _
      rw [List.filter_append, List.filter_singleton, hrow, cond_false, List.append_nil]
      rfl

section Views

variable (b : Backend) (id j rk : String) (r : StatusRecord) (e : Event) (entry : LogEntry)

theorem rowsAt_putStatus : ((Store.putStatus id r).runOn b).2.rowsAt rk = b.rowsAt rk := by
  cases b <;> rfl

theorem holdsId_putStatus : ((Store.putStatus id r).runOn b).2.holdsId j = b.holdsId j := by
  cases b <;> rfl

theorem medium_putEvent : ((Store.putEvent rk e).runOn b).2.medium = b.medium := by
  cases b <;> rfl

theorem rowsAt_putEvent : ((Store.putEvent rk e).runOn b).2.rowsAt j = b.rowsAt j := by
  cases b <;> rfl

theorem holdsId_putEvent : ((Store.putEvent rk e).runOn b).2.holdsId j = b.holdsId j := by
  cases b <;> rfl

theorem medium_addEntry : (b.addEntry entry).medium = b.medium := by
  cases b <;> rfl

theorem recordAt_addEntry : (b.addEntry entry).recordAt id = b.recordAt id := by
  cases b <;> rfl

theorem eventAt_addEntry : (b.addEntry entry).eventAt rk = b.eventAt rk := by
  cases b <;> rfl

end Views

end Backend

/-! ## 2. Regions -/

/-- Some entities and some routing keys. -/
structure Region where
  ids : String → Prop
  keys : String → Prop

namespace Region

/-- The stores are of one kind and look the same in the region. -/
structure Shared (g : Region) (b d : Backend) : Prop where
  medium : b.medium = d.medium
  records : ∀ id, g.ids id → b.recordAt id = d.recordAt id
  events : ∀ rk, g.keys rk → b.eventAt rk = d.eventAt rk
  rows : ∀ rk, g.keys rk → b.rowsAt rk = d.rowsAt rk
  taken : ∀ rk t e, g.keys rk → b.holdsId (LogEntry.of rk t e).id = d.holdsId (LogEntry.of rk t e).id

variable {g : Region} {b d : Backend}

theorem Shared.refl (g : Region) (b : Backend) : g.Shared b b :=
  ⟨rfl, fun _ _ => rfl, fun _ _ => rfl, fun _ _ => rfl, fun _ _ _ _ => rfl⟩

theorem Shared.symm (h : g.Shared b d) : g.Shared d b :=
  ⟨h.medium.symm, fun id hid => (h.records id hid).symm, fun rk hrk => (h.events rk hrk).symm,
    fun rk hrk => (h.rows rk hrk).symm, fun rk t e hrk => (h.taken rk t e hrk).symm⟩

theorem Shared.trans {c : Backend} (h : g.Shared b d) (h' : g.Shared d c) : g.Shared b c :=
  ⟨h.medium.trans h'.medium, fun id hid => (h.records id hid).trans (h'.records id hid),
    fun rk hrk => (h.events rk hrk).trans (h'.events rk hrk),
    fun rk hrk => (h.rows rk hrk).trans (h'.rows rk hrk),
    fun rk t e hrk => (h.taken rk t e hrk).trans (h'.taken rk t e hrk)⟩

/-! ## 3. What a change does to a region -/

section Changes

open Backend

theorem Shared.putStatus (h : g.Shared b d) (id : String) (r : StatusRecord) :
    g.Shared ((Store.putStatus id r).runOn b).2 ((Store.putStatus id r).runOn d).2 where
  medium := by rw [medium_putStatus, medium_putStatus, h.medium]
  records j hj := by rw [recordAt_putStatus, recordAt_putStatus, h.records j hj]
  events rk hrk := by rw [eventAt_putStatus, eventAt_putStatus, h.events rk hrk]
  rows rk hrk := by rw [rowsAt_putStatus, rowsAt_putStatus, h.rows rk hrk]
  taken rk t e hrk := by rw [holdsId_putStatus, holdsId_putStatus, h.taken rk t e hrk]

theorem Shared.putEvent (h : g.Shared b d) (rk : String) (e : Event) :
    g.Shared ((Store.putEvent rk e).runOn b).2 ((Store.putEvent rk e).runOn d).2 where
  medium := by rw [medium_putEvent, medium_putEvent, h.medium]
  records id hid := by
    rw [(sameStatuses_putEvent b rk e).recordAt, (sameStatuses_putEvent d rk e).recordAt,
      h.records id hid]
  events j hj := by rw [eventAt_put, eventAt_put, h.events j hj, h.medium]
  rows j hj := by rw [rowsAt_putEvent, rowsAt_putEvent, h.rows j hj]
  taken j t e hj := by rw [holdsId_putEvent, holdsId_putEvent, h.taken j t e hj]

theorem Shared.addEntry (h : g.Shared b d) (entry : LogEntry) :
    g.Shared (b.addEntry entry) (d.addEntry entry) where
  medium := by rw [medium_addEntry, medium_addEntry, h.medium]
  records id hid := by rw [recordAt_addEntry, recordAt_addEntry, h.records id hid]
  events rk hrk := by rw [eventAt_addEntry, eventAt_addEntry, h.events rk hrk]
  rows rk hrk := by rw [rowsAt_addEntry, rowsAt_addEntry, h.rows rk hrk, h.medium]
  taken rk t e hrk := by rw [holdsId_addEntry, holdsId_addEntry, h.taken rk t e hrk]

/-- A record of an entity outside is not seen from the region. -/
theorem Shared.putStatus_outside {id : String} (hid : ¬ g.ids id) (b : Backend) (r : StatusRecord) :
    g.Shared ((Store.putStatus id r).runOn b).2 b where
  medium := medium_putStatus b id r
  records j hj := by
    have hne : j ≠ id := fun heq => hid (heq ▸ hj)
    rw [recordAt_putStatus, if_neg hne]
  events rk _ := eventAt_putStatus b id r rk
  rows rk _ := rowsAt_putStatus b id rk r
  taken rk t e _ := holdsId_putStatus b id _ r

theorem Shared.putEvent_outside {rk : String} (hrk : ¬ g.keys rk) (b : Backend) (e : Event) :
    g.Shared ((Store.putEvent rk e).runOn b).2 b where
  medium := medium_putEvent b rk e
  records id _ := (sameStatuses_putEvent b rk e).recordAt id
  events j hj := by
    have hne : j ≠ rk := fun heq => hrk (heq ▸ hj)
    rw [eventAt_put, if_neg hne]
  rows j _ := rowsAt_putEvent b j rk e
  taken j t e' _ := holdsId_putEvent b _ rk e

/-- An entry under a routing key outside takes no id that an entry of the region could have. -/
theorem Shared.addEntry_outside {rk : String} (hrk : ¬ g.keys rk) (b : Backend) (t : Instant)
    (e : Event) : g.Shared (b.addEntry (.of rk t e)) b where
  medium := medium_addEntry b _
  records id _ := recordAt_addEntry b id _
  events j _ := eventAt_addEntry b j _
  rows j hj := by
    have hne : rk ≠ j := fun heq => hrk (heq ▸ hj)
    rw [rowsAt_addEntry, if_neg (show (LogEntry.of rk t e).routingKey ≠ j from hne)]
  taken j t' e' hj := by
    have hne : (LogEntry.of rk t e).id ≠ (LogEntry.of j t' e').id :=
      fun heq => hrk ((LogEntry.of_id_inj heq).1 ▸ hj)
    rw [holdsId_addEntry, decide_eq_false hne, Bool.or_false]

end Changes

/-! ## 4. Operations inside and outside -/

/-- **Inside a region** operations come to the same over all stores that share it. -/
theorem linked_inside (g : Region) : Linked g.Shared g.ids g.keys fun _ => True where
  getStatus id hid b d h := by
    rw [Backend.runOn_getStatus, Backend.runOn_getStatus]
    exact ⟨h.records id hid, h, fun _ _ => trivial⟩
  putStatus id r _ b d h := by
    rw [Backend.runOn_putStatus, Backend.runOn_putStatus]
    exact ⟨rfl, h.putStatus id r, fun _ _ => trivial⟩
  getEvent rk hrk b d h := by
    rw [Backend.runOn_getEvent, Backend.runOn_getEvent]
    exact ⟨h.events rk hrk, h, fun _ _ _ _ _ _ _ => trivial⟩
  putEvent rk e _ _ b d h := by
    rw [Backend.runOn_putEvent, Backend.runOn_putEvent]
    exact ⟨rfl, h.putEvent rk e, fun _ _ => trivial⟩
  updateEvent rk change hrk _ b d h := by
    rw [Backend.runOn_updateEvent_eq, Backend.runOn_updateEvent_eq, h.events rk hrk]
    cases d.eventAt rk with
    | error e => exact ⟨rfl, h, fun _ _ => trivial⟩
    | ok o =>
      cases o with
      | none => exact ⟨rfl, h, fun _ _ => trivial⟩
      | some e =>
        dsimp only
        cases e.update? change with
        | none => exact ⟨rfl, h, fun _ _ => trivial⟩
        | some e' =>
          dsimp only
          rw [Backend.runOn_putEvent, Backend.runOn_putEvent]
          exact ⟨rfl, h.putEvent rk e', fun _ _ => trivial⟩
  appendLog rk t e hrk _ b d h := by
    rw [Backend.runOn_appendLog, Backend.runOn_appendLog, h.taken rk t e hrk]
    split
    · exact ⟨rfl, h, fun _ _ => trivial⟩
    · exact ⟨rfl, h.addEntry _, fun _ _ => trivial⟩

/-- **Outside a region** operations leave what a store shares with another one. For a new entry of the
log this is so because its id tells its key, so that it takes no id of the region. -/
theorem linked_outside (g : Region) (d : Backend) :
    Linked (fun b b' => b = b' ∧ g.Shared b d) (fun id => ¬ g.ids id) (fun rk => ¬ g.keys rk)
      fun _ => True where
  getStatus id _ := by
    refine Ensures.matches fun b h => ?_
    rw [Backend.runOn_getStatus]
    exact ⟨h, fun _ _ => trivial⟩
  putStatus id r hid := by
    refine Ensures.matches fun b h => ⟨?_, fun _ _ => trivial⟩
    exact (Shared.putStatus_outside hid b r).trans h
  getEvent rk _ := by
    refine Ensures.matches fun b h => ?_
    rw [Backend.runOn_getEvent]
    exact ⟨h, fun _ _ _ _ _ _ _ => trivial⟩
  putEvent rk e hrk _ := by
    refine Ensures.matches fun b h => ⟨?_, fun _ _ => trivial⟩
    exact (Shared.putEvent_outside hrk b e).trans h
  updateEvent rk change hrk _ := by
    refine Ensures.matches fun b h => ⟨?_, fun _ _ => trivial⟩
    obtain ⟨o, b', hrun⟩ : ∃ o b', (Store.updateEvent rk change).runOn b = (o, b') := ⟨_, _, rfl⟩
    rw [hrun]
    rcases Backend.updateEvent_cases hrun with ⟨-, rfl, -⟩ | ⟨-, e', -, -, -, rfl⟩
    · exact h
    · exact (Shared.putEvent_outside hrk b e').trans h
  appendLog rk t e hrk _ := by
    refine Ensures.matches fun b h => ⟨?_, fun _ _ => trivial⟩
    rw [Backend.runOn_appendLog]
    split
    · exact h
    · exact (Shared.addEntry_outside hrk b t e).trans h

end Region
end AlertStatus
