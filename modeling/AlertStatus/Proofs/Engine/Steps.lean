import AlertStatus.Proofs.Event.Merging
import AlertStatus.Proofs.Status.Expiry
import AlertStatus.Proofs.Status.Runs
import AlertStatus.Proofs.Store.World
import AlertStatus.Session
import Mathlib.Logic.Relation

/-!
# What each operation of the engine does

Seen from outside, an operation of the engine moves the world of its store. `Step` lists the moves: one
for a check, one for each thing an operator may do, and for a sweep a series of resolutions, each of
one record whose live event follows it. `tries_run` shows that every command, over either kind of
store, makes one of them or none. Invariants of runs are then proved about moves, with no store in
sight.

An operation that is refused moves nothing. That holds of these operations because each of them looks
before it writes; the writes themselves cannot fail on a store without faults.
-/

set_option autoImplicit false

namespace AlertStatus
namespace World

/-! ## 1. Moves -/

/-- The record of an entity after a check: the first one, the same one when the check is stale, and
else the next one, under the routing key of the event. The status table is the built-in one, in which
every status has its rule. -/
def checked (p : Policy) (c : Check) (rk : String) : Option StatusRecord → StatusRecord
  | none => { StatusRecord.first c.state c.timestamp with routingKey := some rk }
  | some r =>
    if c.timestamp < r.timestamp then r else { r.next p c with routingKey := some rk }

/-- The live event after an event was archived. It is an option because an update may be refused, which
a merge never is (`Event.exists_merged`). -/
def archived? (excluded : List String) (now : Instant) (e : Event) : Option Event → Option Event
  | none => some { e.identified now with lastStateChange := some (e.timestamp.getD now) }
  | some prior =>
    prior.update?
      (((e.identified now).stamped prior (e.timestamp.getD now)).changeOf excluded prior)

/-- The event as the engine hands it to the archive. -/
def reported (now : Instant) (e : Event) (s : Status) : Event :=
  { e with timestamp := some (e.timestamp.getD now), status := some s }

/-- The live event takes the status of its record, if there is one. It is read back with its status, so
its extra fields may be others (`x`). -/
inductive Follows (r : StatusRecord) (w : World) : World → Prop where
  | lost (h : ∀ rk, r.routingKey = some rk → w.live rk = none) : Follows r w w
  | set {rk : String} {e : Event} {x : ExtraFields} (hrk : r.routingKey = some rk)
      (he : w.live rk = some e) :
      Follows r w (w.setLive rk { e with status := some r.value, extra := x })

/-- A sweep resolves one record. -/
inductive Resolves (p : Policy) (now : Instant) (w : World) : World → Prop where
  | mk {id : String} {r : StatusRecord} {w' : World} (hr : w.record id = some r)
      (he : r.isExpired now p.stealthyShow p.flappingTime = true)
      (hw : Follows (r.resolve p now) (w.setRecord id (r.resolve p now)) w') : Resolves p now w w'

/-- A sweep resolves some records, one after the other. -/
abbrev Sweeps (p : Policy) (now : Instant) : World → World → Prop :=
  Relation.ReflTransGen (Resolves p now)

/-- The record after a cancellation is lifted. -/
def lifted (r : StatusRecord) (timestamp : Instant) : StatusRecord :=
  if r.value = .canceled then Tracker.restored r timestamp else r

/-- The moves of the engine at the clock time `now`. -/
inductive Step (p : Policy) (now : Instant) : EngineCommand → World → World → Prop where
  | idle (c : EngineCommand) (w : World) : Step p now c w w
  | check {w : World} {e d : Event} {id : String} {r : StatusRecord} {x : ExtraFields}
      (hid : e.entityId = .ok id)
      (hr : r = checked p ⟨e.state, e.timestamp.getD now⟩ e.routingKey (w.record id))
      (hd : archived? p.exclusionFields now (reported now e r.value) (w.live e.routingKey) = some d) :
      Step p now (.processEvent e) w
        ((w.setRecord id r).setLive e.routingKey { d with extra := x })
  | sweep {t : Instant} {w w' : World} (h : Sweeps p t w w') : Step p now (.sweep t) w w'
  | beat {t : Option Instant} {w w' : World} (h : Sweeps p (t.getD now) w w') :
      Step p now (.beat t) w w'
  | cancel {w : World} {rk id : String} {c : Remark} {e : Event} {r : StatusRecord} {x : ExtraFields}
      (he : w.live rk = some e) (hid : e.entityId = .ok id) (hr : w.record id = some r) :
      Step p now (.cancel rk c) w
        ((w.setRecord id (Tracker.canceled r c.timestamp)).setLive rk
          { e with cancel := some c, status := some .canceled, extra := x })
  | uncancel {w : World} {rk id : String} {t : Instant} {e : Event} {r : StatusRecord}
      {x : ExtraFields} (he : w.live rk = some e) (hid : e.entityId = .ok id)
      (hr : w.record id = some r) :
      Step p now (.uncancel rk t) w
        ((w.setRecord id (lifted r t)).setLive rk
          { e with cancel := none, status := some (lifted r t).value, extra := x })
  | acknowledge {w : World} {rk : String} {a : Remark} {e : Event} {x : ExtraFields}
      (he : w.live rk = some e) :
      Step p now (.acknowledge rk a) w (w.setLive rk { e with ack := some a, extra := x })
  | removeAck {w : World} {rk : String} {e : Event} {x : ExtraFields} (he : w.live rk = some e) :
      Step p now (.removeAck rk) w (w.setLive rk { e with ack := none, extra := x })

/-- A resolution writes no more of a live event than its status. -/
theorem Resolves.live {p : Policy} {now : Instant} {w w' : World} (h : Resolves p now w w')
    (rk : String) :
    ∃ s x, w'.live rk = (w.live rk).map fun e => { e with status := s, extra := x } := by
  obtain ⟨-, -, hw⟩ := h
  -- What is not written is written as it was.
  have hkept : ∃ s x, w.live rk = (w.live rk).map fun e => { e with status := s, extra := x } := by
    cases w.live rk with
    | none => exact ⟨none, .none, rfl⟩
    | some e => exact ⟨e.status, e.extra, rfl⟩
  cases hw with
  | lost => exact hkept
  | @set rk₁ e₁ x hrk₁ he₁ =>
    by_cases heq : rk = rk₁
    · subst heq
      have he₁' : w.live rk = some e₁ := he₁
      rw [he₁']
      exact ⟨_, x, if_pos rfl⟩
    · rw [live_setLive, if_neg heq]
      exact hkept

/-- Nor does a sweep. -/
theorem Sweeps.live {p : Policy} {now : Instant} {w w' : World} (h : Sweeps p now w w')
    (rk : String) :
    ∃ s x, w'.live rk = (w.live rk).map fun e => { e with status := s, extra := x } := by
  induction h with
  | refl =>
    cases w.live rk with
    | none => exact ⟨none, .none, rfl⟩
    | some e => exact ⟨e.status, e.extra, rfl⟩
  | tail _ hlast ih =>
    obtain ⟨s₁, x₁, h₁⟩ := ih
    obtain ⟨s₂, x₂, h₂⟩ := hlast.live rk
    refine ⟨s₂, x₂, ?_⟩
    rw [h₂, h₁, Option.map_map]
    rfl

end World

namespace Backend

open World

variable {m : Medium} {w : World} {p : Policy} {now : Instant}

/-! ## 2. The tracker -/

theorem succeeds_trackerGet (m : Medium) (w : World) (id : String) :
    Succeeds m (Tracker.getStatus id) w fun o w' => w' = w ∧ o = w.record id :=
  (succeeds_getStatus m w id).rename _

theorem succeeds_trackerPut (m : Medium) (w : World) (id : String) (r : StatusRecord) :
    Succeeds m (Tracker.putStatus id r) w fun _ w' => w' = w.setRecord id r :=
  (succeeds_putStatus m w id r).rename _

theorem succeeds_keep (m : Medium) (w : World) (id rk : String) (r : StatusRecord) :
    Succeeds m (Tracker.process.keep id rk r) w fun r' w' =>
      r' = { r with routingKey := some rk } ∧
        w' = w.setRecord id { r with routingKey := some rk } := by
  refine (succeeds_trackerPut m w id _).bind ?_
  rintro - w' rfl
  exact succeeds_pure ⟨rfl, rfl⟩

/-- **A check**: the record that the tracker gives is the one that it leaves. -/
theorem succeeds_process (m : Medium) (w : World) (p : Policy) (id rk : String) (c : Check) :
    Succeeds m ((⟨.standard, p⟩ : Tracker).process id rk c) w fun r w' =>
      r = checked p c rk (w.record id) ∧ w' = w.setRecord id (checked p c rk (w.record id)) := by
  refine (succeeds_trackerGet m w id).bind ?_
  rintro o w' ⟨rfl, rfl⟩
  cases hr : w'.record id with
  | none => exact succeeds_keep m w' id rk _
  | some r =>
    show Succeeds m (if c.timestamp < r.timestamp then _ else _) w' _
    unfold checked
    dsimp only
    split
    · refine succeeds_pure ⟨rfl, ?_⟩
      rw [setRecord_self hr]
    · rw [Tracker.advance_standard]
      exact succeeds_keep m w' id rk _

theorem tries_known (m : Medium) (w : World) (id : String) :
    Tries m (Tracker.known id) w fun r w' => w' = w ∧ w.record id = some r := by
  refine (succeeds_trackerGet m w id).tries.bind_look ?_
  rintro o rfl
  cases hr : w.record id with
  | none => exact tries_fail _ _
  | some r => exact (succeeds_pure ⟨rfl, rfl⟩).tries

theorem tries_trackerCancel (m : Medium) (w : World) (id : String) (t : Instant) :
    Tries m (Tracker.cancel id t) w fun r' w' =>
      ∃ r, w.record id = some r ∧ r' = Tracker.canceled r t ∧ w' = w.setRecord id r' := by
  refine (tries_known m w id).bind_look fun r hr => Succeeds.tries ?_
  refine (succeeds_trackerPut m w id _).bind ?_
  rintro - w' rfl
  exact succeeds_pure ⟨r, hr, rfl, rfl⟩

theorem tries_trackerUncancel (m : Medium) (w : World) (id : String) (t : Instant) :
    Tries m (Tracker.uncancel id t) w fun r' w' =>
      ∃ r, w.record id = some r ∧ r' = lifted r t ∧ w' = w.setRecord id (lifted r t) := by
  refine (tries_known m w id).bind_look fun r hr => Succeeds.tries ?_
  show Succeeds m (if r.value = .canceled then _ else _) w _
  by_cases hv : r.value = .canceled
  · rw [if_pos hv]
    refine (succeeds_trackerPut m w id _).bind ?_
    rintro - w' rfl
    refine succeeds_pure ⟨r, hr, ?_, ?_⟩
    · rw [lifted, if_pos hv]
    · rw [lifted, if_pos hv]
  · rw [if_neg hv]
    refine succeeds_pure ⟨r, hr, ?_, ?_⟩
    · rw [lifted, if_neg hv]
    · rw [lifted, if_neg hv, setRecord_self hr]

/-- **A resolution**: what is given as resolved was expired, and is stored. -/
theorem succeeds_expire (m : Medium) (w : World) (t : Tracker) (id : String) (now : Instant) :
    Succeeds m (t.expire id now) w fun o w' =>
      (o = none ∧ w' = w) ∨
      ∃ r, w.record id = some r ∧ r.isExpired now t.policy.stealthyShow t.policy.flappingTime = true ∧
        o = some (r.resolve t.policy now) ∧ w' = w.setRecord id (r.resolve t.policy now) := by
  refine (succeeds_trackerGet m w id).bind ?_
  rintro o w' ⟨rfl, rfl⟩
  cases hr : w'.record id with
  | none => exact succeeds_pure (Or.inl ⟨rfl, rfl⟩)
  | some r =>
    show Succeeds m (if _ ∧ r.resolve t.policy now ≠ r then _ else _) w' _
    split
    · rename_i hexp
      refine (succeeds_trackerPut m w' id _).bind ?_
      rintro - w'' rfl
      exact succeeds_pure (Or.inr ⟨r, rfl, hexp.1, rfl, rfl⟩)
    · exact succeeds_pure (Or.inl ⟨rfl, rfl⟩)

/-! ## 3. The archive -/

theorem keeps_merged {excluded : List String} {e prior e' : Event}
    (h : prior.update? (e.changeOf excluded prior) = some e') (he : m.Keeps e)
    (hp : m.Keeps prior) : m.Keeps e' := by
  cases m with
  | values => trivial
  | texts =>
    intro k v hv
    rcases Event.extra_merged h hv with hv | hv
    · exact hp k v hv
    · exact he k v hv

theorem succeeds_tryAppend (m : Medium) (w : World) (entry : LogEntry) :
    Succeeds m (Archive.tryAppend entry) w fun _ w' => w' = w := by
  refine (succeeds_appendLog m w entry).bind ?_
  rintro o w' rfl
  exact succeeds_pure rfl

/-- **An event is archived**: the live record of its key is the merged one. Nothing is asked of the
event but that the store keeps it (`he`), as the merge itself never fails. -/
theorem succeeds_archive {e : Event} (he : m.Keeps e) (w : World) (excluded : List String)
    (now : Instant) :
    Succeeds m ((⟨excluded⟩ : Archive).process now e) w fun _ w' =>
      ∃ d x, archived? excluded now e (w.live e.routingKey) = some d ∧
        w' = w.setLive e.routingKey { d with extra := x } := by
  refine Succeeds.of_kept fun hkept => ?_
  refine (succeeds_getEvent m w e.routingKey).bind ?_
  rintro o w' ⟨rfl, rfl⟩
  cases hlive : w'.live e.routingKey with
  | none =>
    have hkeeps : m.Keeps { e.identified now with
        lastStateChange := some (e.timestamp.getD now) } := he.of_extra rfl
    refine (succeeds_putEvent hkeeps w' e.routingKey).bind ?_
    rintro - w'' ⟨x, rfl⟩
    exact succeeds_pure ⟨_, x, rfl, rfl⟩
  | some prior =>
    let stamped := (e.identified now).stamped prior (e.timestamp.getD now)
    obtain ⟨d, hd, -, -⟩ := Event.exists_merged excluded stamped prior
    have hkeeps : m.Keeps d := by
      refine keeps_merged hd (he.of_extra ?_) (hkept _ _ hlive)
      exact Event.stamped_extra (e.identified now) prior (e.timestamp.getD now)
    let log : Action Backend StoreError Bool :=
      if Archive.logged stamped then
        Archive.tryAppend (Archive.logCopy e.routingKey (e.timestamp.getD now) stamped prior)
      else pure false
    -- The log is written after the update or in its place, and leaves the world alone either way.
    have hlog : ∀ w' : World, Succeeds m log w' fun _ w'' => w'' = w' := by
      intro w'
      show Succeeds m (if _ then _ else _) w' _
      split
      · exact succeeds_tryAppend m w' _
      · exact succeeds_pure rfl
    show Succeeds m
      (if (stamped.changeOf excluded prior).isEmpty = true then log
      else Store.updateEvent e.routingKey (stamped.changeOf excluded prior) >>= fun _ => log) w' _
    split
    · rename_i hempty
      refine (hlog w').weaken ?_
      rintro - w'' rfl
      exact ⟨prior, prior.extra, Event.update?_of_isEmpty prior hempty, (setLive_self hlive).symm⟩
    · refine (succeeds_updateEvent hlive hd hkeeps).bind ?_
      rintro - w'' ⟨x, rfl⟩
      refine (hlog _).weaken ?_
      rintro - w''' rfl
      exact ⟨d, x, hd, rfl⟩

/-! ## 4. The engine -/

theorem tries_entityOf (m : Medium) (w : World) (rk : String) :
    Tries m (Engine.entityOf rk) w fun id w' =>
      w' = w ∧ ∃ e, w.live rk = some e ∧ e.entityId = .ok id := by
  have hget : Succeeds m (Engine.onStore (Store.getEvent rk) : Action Backend EngineError _) w
      fun o w' => w' = w ∧ o = w.live rk := (succeeds_getEvent m w rk).rename _
  refine hget.tries.bind_look ?_
  rintro o rfl
  cases hlive : w.live rk with
  | none => exact tries_fail _ _
  | some e =>
    dsimp only
    cases hid : e.entityId with
    | error x => exact tries_fail _ _
    | ok id => exact (succeeds_pure ⟨rfl, e, rfl, hid⟩).tries

theorem tries_processEvent {e : Event} (he : m.Keeps e) (w : World) (p : Policy) (now : Instant) :
    Tries m ((Engine.of .standard p).processEvent now e) w
      fun _ w' => Step p now (.processEvent e) w w' := by
  unfold Engine.processEvent
  cases hid : e.entityId with
  | error x => exact (succeeds_pure (.idle _ _)).tries
  | ok id =>
    have hrecord : Succeeds m (Engine.onStatus ((Engine.of .standard p).tracker.process id
        e.routingKey ⟨e.state, e.timestamp.getD now⟩) : Action Backend EngineError _) w fun r w' =>
          r = checked p ⟨e.state, e.timestamp.getD now⟩ e.routingKey (w.record id) ∧
            w' = w.setRecord id r := by
      refine ((succeeds_process m w p id e.routingKey _).rename _).weaken ?_
      rintro r w' ⟨rfl, rfl⟩
      exact ⟨rfl, rfl⟩
    refine (hrecord.bind ?_).tries
    rintro r w' ⟨hr, rfl⟩
    have hkeeps : m.Keeps (reported now e r.value) := he.of_extra rfl
    refine ((succeeds_archive hkeeps _ p.exclusionFields now).rename _).bind ?_
    rintro - w' ⟨d, x, hd, rfl⟩
    exact succeeds_pure (.check hid hr hd)

/-- **A cancellation that succeeds** marks the record of the entity and its live event. -/
theorem tries_canceled (m : Medium) (w : World) (rk : String) (c : Remark) :
    Tries m (Engine.cancel rk c) w fun r' w' =>
      ∃ e id r x, w.live rk = some e ∧ e.entityId = .ok id ∧ w.record id = some r ∧
        r' = Tracker.canceled r c.timestamp ∧
        w' = (w.setRecord id r').setLive rk
          { e with cancel := some c, status := some .canceled, extra := x } := by
  refine Tries.of_kept fun hkept => (tries_entityOf m w rk).bind_look ?_
  rintro id ⟨e, he, hid⟩
  refine ((tries_trackerCancel m w id c.timestamp).rename _).bind ?_
  rintro r' w' ⟨r, hr, rfl, rfl⟩
  have hkeeps : m.Keeps { e with cancel := some c, status := some .canceled } :=
    (hkept rk e he).of_extra rfl
  have hlive : (w.setRecord id (Tracker.canceled r c.timestamp)).live rk = some e := he
  refine ((succeeds_updateEvent hlive (Event.update?_cancel e c .canceled) hkeeps).rename _).bind ?_
  rintro - w' ⟨x, rfl⟩
  exact succeeds_pure ⟨e, id, r, x, he, hid, hr, rfl, rfl⟩

theorem tries_cancel (m : Medium) (w : World) (p : Policy) (now : Instant) (rk : String)
    (c : Remark) :
    Tries m (Engine.cancel rk c) w fun _ w' => Step p now (.cancel rk c) w w' := by
  refine (tries_canceled m w rk c).weaken ?_
  rintro - w' ⟨e, id, r, x, he, hid, hr, rfl, rfl⟩
  exact .cancel he hid hr

theorem tries_uncancel (m : Medium) (w : World) (p : Policy) (now : Instant) (rk : String)
    (t : Instant) :
    Tries m (Engine.uncancel rk t) w fun _ w' => Step p now (.uncancel rk t) w w' := by
  refine Tries.of_kept fun hkept => (tries_entityOf m w rk).bind_look ?_
  rintro id ⟨e, he, hid⟩
  refine ((tries_trackerUncancel m w id t).rename _).bind ?_
  rintro - w' ⟨r, hr, rfl, rfl⟩
  have hkeeps : m.Keeps { e with cancel := none, status := some (lifted r t).value } :=
    (hkept rk e he).of_extra rfl
  have hlive : (w.setRecord id (lifted r t)).live rk = some e := he
  refine ((succeeds_updateEvent hlive (Event.update?_uncancel e _) hkeeps).rename _).bind ?_
  rintro - w' ⟨x, rfl⟩
  exact succeeds_pure (.uncancel (e := e) he hid hr)

theorem tries_acknowledge (m : Medium) (w : World) (p : Policy) (now : Instant) (rk : String)
    (a : Remark) :
    Tries m (Engine.acknowledge rk a) w fun _ w' => Step p now (.acknowledge rk a) w w' := by
  refine Tries.of_kept fun hkept => (tries_entityOf m w rk).bind_look ?_
  rintro id ⟨e, he, -⟩
  have hkeeps : m.Keeps { e with ack := some a } := (hkept rk e he).of_extra rfl
  refine (((succeeds_updateEvent he (Event.update?_ack e a) hkeeps).weaken ?_).rename _).tries
  rintro - w' ⟨x, rfl⟩
  exact .acknowledge (e := e) he

theorem tries_removeAck (m : Medium) (w : World) (p : Policy) (now : Instant) (rk : String) :
    Tries m (Engine.removeAck rk) w fun _ w' => Step p now (.removeAck rk) w w' := by
  refine Tries.of_kept fun hkept => (tries_entityOf m w rk).bind_look ?_
  rintro id ⟨e, he, -⟩
  have hkeeps : m.Keeps { e with ack := none } := (hkept rk e he).of_extra rfl
  refine (((succeeds_updateEvent he (Event.update?_removeAck e) hkeeps).weaken ?_).rename _).tries
  rintro - w' ⟨x, rfl⟩
  exact .removeAck (e := e) he

/-! ## 5. The sweep -/

theorem reflects_follow {b : Backend} (hb : b.Reflects m w) (r : StatusRecord) :
    ∃ w', (Engine.follow r b).Reflects m w' ∧ Follows r w w' := by
  unfold Engine.follow
  cases hrk : r.routingKey with
  | none => exact ⟨w, hb, .lost fun rk h => by rw [hrk] at h; cases h⟩
  | some rk =>
    dsimp only
    cases hlive : w.live rk with
    | none =>
      -- An update of a live event that is missing is refused, and the sweep goes on.
      have htries := tries_updateEvent_of_none (m := m) hlive
        (.ofList [("status", r.value.toJson)]) (fun _ _ => False)
      rcases htries b hb with ⟨e, b', hrun, hb'⟩ | ⟨a, b', w', hrun, hb', h⟩
      · refine ⟨w, ?_, .lost fun j hj => ?_⟩
        · show ((Store.updateEvent rk (.ofList [("status", r.value.toJson)])).runOn b).2.Reflects m w
          rw [hrun]
          exact hb'
        · rw [hrk] at hj
          cases hj
          exact hlive
      · exact h.elim
    | some e =>
      have hkeeps : m.Keeps { e with status := some r.value } := (hb.kept rk e hlive).of_extra rfl
      obtain ⟨a, b', w', hrun, hb', x, rfl⟩ :=
        succeeds_updateEvent hlive (Event.update?_status e r.value) hkeeps b hb
      refine ⟨_, ?_, .set (e := e) (x := x) hrk hlive⟩
      show ((Store.updateEvent rk (.ofList [("status", r.value.toJson)])).runOn b).2.Reflects m _
      rw [hrun]
      exact hb'

theorem reflects_sweepOne {b : Backend} (hb : b.Reflects m w) (p : Policy) (now : Instant)
    (report : SweepReport) (id : String) :
    ∃ w', ((Engine.of .standard p).sweepOne now (report, b) id).2.Reflects m w' ∧
      (w' = w ∨ Resolves p now w w') := by
  obtain ⟨o, b', w', hrun, hb', hw'⟩ := succeeds_expire m w ⟨.standard, p⟩ id now b hb
  have hrun' : ((Engine.of .standard p).tracker.expire id now).runOn b = (.ok o, b') := hrun
  unfold Engine.sweepOne
  dsimp only
  rw [hrun']
  rcases hw' with ⟨rfl, rfl⟩ | ⟨r, hr, hexp, rfl, rfl⟩
  · exact ⟨w', hb', Or.inl rfl⟩
  · obtain ⟨w'', hb'', hfollows⟩ := reflects_follow hb' (r.resolve p now)
    exact ⟨w'', hb'', Or.inr (.mk hr hexp hfollows)⟩

theorem reflects_foldl_sweepOne (p : Policy) (now : Instant) (ids : List String) {w : World}
    {b : Backend} (hb : b.Reflects m w) (report : SweepReport) :
    ∃ w', (ids.foldl ((Engine.of .standard p).sweepOne now) (report, b)).2.Reflects m w' ∧
      Sweeps p now w w' := by
  induction ids generalizing w b report with
  | nil => exact ⟨w, hb, .refl⟩
  | cons id ids ih =>
    obtain ⟨w₁, hb₁, hone⟩ := reflects_sweepOne hb p now report id
    rw [List.foldl_cons]
    generalize (Engine.of .standard p).sweepOne now (report, b) id = acc at hb₁
    obtain ⟨report₁, b₁⟩ := acc
    obtain ⟨w₂, hb₂, hrest⟩ := ih hb₁ report₁
    rcases hone with rfl | hone
    · exact ⟨w₂, hb₂, hrest⟩
    · exact ⟨w₂, hb₂, hrest.head hone⟩

/-- **A sweep resolves records one after the other.** It never fails: a query that is refused ends it
with nothing done, and a candidate that is refused is counted and passed over. -/
theorem reflects_sweep {b : Backend} (hb : b.Reflects m w) (p : Policy) (now : Instant) :
    ∃ w', ((Engine.of .standard p).sweep now b).2.Reflects m w' ∧ Sweeps p now w w' := by
  have hfind : ((((Engine.of .standard p).tracker.findExpired now).runOn b).2).Reflects m w := by
    rw [snd_runOn_findExpired]
    exact hb
  unfold Engine.sweep
  generalize ((Engine.of .standard p).tracker.findExpired now).runOn b = found at hfind
  obtain ⟨o, b'⟩ := found
  cases o with
  | error e => exact ⟨w, hfind, .refl⟩
  | ok found => exact reflects_foldl_sweepOne p now _ hfind _

/-! ## 6. Commands and runs -/

theorem succeeds_total {ε α : Type} {f : Backend → α × Backend} {P : World → Prop}
    (h : ∀ b : Backend, b.Reflects m w → ∃ w', (f b).2.Reflects m w' ∧ P w') :
    Succeeds m (Action.total f : Action Backend ε α) w fun _ w' => P w' := by
  intro b hb
  obtain ⟨w', hb', hP⟩ := h b hb
  exact ⟨(f b).1, (f b).2, w', rfl, hb', hP⟩

end Backend

/-- The event that a command brings. -/
def EngineCommand.event? : EngineCommand → Option Event
  | .processEvent e => some e
  | _ => none

/-- The events that a run brings. Conditions on the events of a run are stated about this list. -/
def brought (run : List (Instant × EngineCommand)) : List Event :=
  run.filterMap fun c => c.2.event?

theorem mem_brought {run : List (Instant × EngineCommand)} {c : Instant × EngineCommand} {e : Event}
    (hc : c ∈ run) (he : c.2.event? = some e) : e ∈ brought run :=
  List.mem_filterMap.mpr ⟨c, hc, he⟩

theorem brought_append (xs ys : List (Instant × EngineCommand)) :
    brought (xs ++ ys) = brought xs ++ brought ys :=
  List.filterMap_append

namespace Backend

open World

variable {m : Medium} {w : World} {p : Policy}

/-- **Every command makes a move of the engine or none.** The event that a command brings has to be one
that the store keeps (`hc`). Of the other commands nothing is asked, as what they write to a live event
is always read back. -/
theorem tries_run (p : Policy) (now : Instant) (c : EngineCommand)
    (hc : ∀ e, c.event? = some e → m.Keeps e) (w : World) :
    Tries m (c.run (Engine.of .standard p) now) w fun _ w' => Step p now c w w' := by
  -- The commands that only look are idle, whatever they answer.
  have hlook : ∀ {α : Type} (x : Action Backend EngineError α) (f : α → Reply) (w : World),
      (∀ b : Backend, (x.runOn b).2 = b) →
        Tries m (do return f (← x)) w fun _ w' => Step p now c w w' := by
    intro α x f w hx b hb
    rw [Action.runOn_bind]
    have hstate := hx b
    generalize x.runOn b = o at hstate
    obtain ⟨r, b'⟩ := o
    cases hstate
    cases r with
    | error e => exact Or.inl ⟨e, b', rfl, hb⟩
    | ok a => exact Or.inr ⟨f a, b', w, rfl, hb, .idle c w⟩
  cases c with
  | processEvent e =>
    exact (tries_processEvent (hc e rfl) w p now).bind fun _ _ h => succeeds_pure h
  | sweep t =>
    have hsweep := fun (b : Backend) (hb : b.Reflects m w) => reflects_sweep hb p t
    refine ((succeeds_total hsweep).bind ?_).tries
    exact fun _ _ h => succeeds_pure (.sweep h)
  | beat t =>
    have hsweep := fun (b : Backend) (hb : b.Reflects m w) => reflects_sweep hb p (t.getD now)
    refine ((succeeds_total hsweep).bind ?_).tries
    exact fun _ _ h => succeeds_pure (.beat h)
  | cancel rk remark => exact (tries_cancel m w p now rk remark).bind fun _ _ h => succeeds_pure h
  | uncancel rk t => exact (tries_uncancel m w p now rk t).bind fun _ _ h => succeeds_pure h
  | acknowledge rk ack =>
    exact (tries_acknowledge m w p now rk ack).bind fun _ _ h => succeeds_pure h
  | removeAck rk => exact (tries_removeAck m w p now rk).bind fun _ _ h => succeeds_pure h
  | status entity => exact hlook (Engine.status entity) _ w fun b => by cases b <;> rfl
  | event rk => exact hlook (Engine.event rk) _ w fun b => by cases b <;> rfl
  | history rk => exact hlook (Engine.history rk) _ w fun b => by cases b <;> rfl
  | policy => exact (succeeds_pure (.idle _ w)).tries

/-- A store of the given kind with nothing in it. -/
def blank : Medium → Backend
  | .values => .memory .empty
  | .texts => .tables .empty

theorem reflects_blank (m : Medium) : (blank m).Reflects m World.empty := by
  cases m <;> exact ⟨rfl, fun _ => rfl, fun _ => rfl, fun _ _ h => by cases h⟩

/-- The store after a run of commands, each at a time of the clock. -/
def after (p : Policy) (run : List (Instant × EngineCommand)) (b : Backend) : Backend :=
  Action.runAll (fun c => c.2.run (Engine.of .standard p) c.1) run b

/-- **What every command keeps, a run keeps**, from a store that shows some world. A command that is
refused shows the same world again, so only those that succeed have to be looked at. -/
theorem exists_reflects_runAll {κ ε α : Type} {I : World → Prop} {command : κ → Action Backend ε α}
    (run : List κ) (h : ∀ c ∈ run, ∀ w, I w → Tries m (command c) w fun _ w' => I w') {b : Backend}
    {w : World} (hb : b.Reflects m w) (hw : I w) :
    ∃ w', (Action.runAll command run b).Reflects m w' ∧ I w' := by
  have hkeeps : ∀ c ∈ run, (command c).Ensures
      (fun b : Backend => ∃ w, b.Reflects m w ∧ I w) fun _ => True := ?_
  · exact Action.runAll_ensures run hkeeps ⟨w, hb, hw⟩
  rintro c hc b ⟨w, hb, hw⟩
  refine ⟨?_, fun _ _ => trivial⟩
  rcases h c hc w hw b hb with ⟨e, b', hrun, hb'⟩ | ⟨a, b', w', hrun, hb', hw'⟩
  · rw [hrun]
    exact ⟨w, hb', hw⟩
  · rw [hrun]
    exact ⟨w', hb', hw'⟩

/-- **Invariants of moves are invariants of runs.** The invariant is asked of the moves of the run
alone (`hstep`), so that it may speak of the events that the run brings. Those have to be kept
(`hkept`), or the store would show no world any more. -/
theorem exists_reflects_after {I : World → Prop} (p : Policy)
    (run : List (Instant × EngineCommand)) (hkept : ∀ e ∈ brought run, m.Keeps e)
    (hstep : ∀ c ∈ run, ∀ w w', I w → Step p c.1 c.2 w w' → I w') {b : Backend} {w : World}
    (hb : b.Reflects m w) (hw : I w) : ∃ w', (after p run b).Reflects m w' ∧ I w' := by
  refine exists_reflects_runAll run (fun c hc w hw => ?_) hb hw
  have hc' : ∀ e, c.2.event? = some e → m.Keeps e := fun e he => hkept e (mem_brought hc he)
  exact (tries_run p c.1 c.2 hc' w).weaken fun _ w' hs => hstep c hc w w' hw hs

end Backend

/-! ## 7. The addresses of a run -/

/-- A routing key belongs to one source and an entity to one routing key, and no event brings a
cancellation of its own. Two entities under one key would write to one live event. An entity under two
keys leaves its first live event behind as it is. And a cancellation that an event brings is on a live
event whose entity nobody canceled. -/
structure Addressed (es : List Event) : Prop where
  source : ∀ e ∈ es, ∀ d ∈ es, e.routingKey = d.routingKey → e.source = d.source
  key : ∀ e ∈ es, ∀ d ∈ es, ∀ id, e.entityId = .ok id → d.entityId = .ok id →
    e.routingKey = d.routingKey
  uncanceled : ∀ e ∈ es, e.cancel = none

/-- The time with the given number of seconds. -/
def atSecond (n : Int) : Instant := Instant.latest.nearest n

/-- A check of one web service. -/
def Event.webCheck (state seconds : Int) : Event :=
  { Event.blank with
    connector := "nagios", connectorName := "n1", eventType := "check", sourceType := "resource",
    component := "web01", resource := some "http", state := CheckState.ok.nearest state,
    timestamp := some (atSecond seconds) }

/-- The routing key of the web service. -/
def webKey : String := "nagios.n1.check.resource.web01.http"

theorem keeps_webCheck (m : Medium) (state seconds : Int) : m.Keeps (.webCheck state seconds) := by
  cases m with
  | values => trivial
  | texts =>
    intro k v hv
    cases hv

theorem addressed_webChecks {es : List Event} (h : ∀ e ∈ es, ∃ s t, e = Event.webCheck s t) :
    Addressed es where
  source := by
    intro e he d hd _
    obtain ⟨s, t, rfl⟩ := h e he
    obtain ⟨s', t', rfl⟩ := h d hd
    rfl
  key := by
    intro e he d hd _ _ _
    obtain ⟨s, t, rfl⟩ := h e he
    obtain ⟨s', t', rfl⟩ := h d hd
    rfl
  uncanceled := by
    intro e he
    obtain ⟨s, t, rfl⟩ := h e he
    rfl

end AlertStatus
