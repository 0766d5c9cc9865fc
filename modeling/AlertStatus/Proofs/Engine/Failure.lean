import AlertStatus.Proofs.Engine.Incident
import AlertStatus.Proofs.Store.Faults

/-!
# What an event that fails leaves behind

An event is processed in two steps. The tracker stores the new record of the entity, then the archive
merges the event into the live record. Each step alone is atomic behind a plan of faults: it is refused
and leaves the store, or it is done. Both together are not, since nothing takes the record back when the
archive is refused.

`processEvent_failed` says what an event leaves behind when it fails, and so when it leaves all as it
was. `record_outlives_failure` is an alert that was never archived, whose entity is in alert ever since.
-/

set_option autoImplicit false

namespace AlertStatus

/-! ## 1. The operations of a store behind a plan -/

namespace Backend

/-- The stores are of one kind and have the same live events and the same log. -/
def SameEvents : Backend → Backend → Prop
  | .memory s, .memory s' => s'.events = s.events ∧ s'.log = s.log
  | .tables s, .tables s' => s'.events = s.events ∧ s'.log = s.log
  | _, _ => False

theorem SameEvents.refl (b : Backend) : b.SameEvents b := by
  cases b <;> exact ⟨rfl, rfl⟩

theorem sameEvents_putStatus (b : Backend) (id : String) (r : StatusRecord) :
    b.SameEvents ((Store.putStatus id r).runOn b).2 := by
  cases b <;> exact ⟨rfl, rfl⟩

theorem updateEvent_eq_or_ok (b : Backend) (rk : String) (change : Fields) :
    ((Store.updateEvent rk change).runOn b).2 = b ∨
      ∃ a, ((Store.updateEvent rk change).runOn b).1 = .ok a := by
  cases b with
  | memory s =>
    have hor := Action.runOn_become_or (fun s : MemoryStore => s.updateEvent rk change) s
    exact hor.imp (congrArg Backend.memory) fun hok => ⟨(), hok⟩
  | tables s =>
    have hor := Action.runOn_become_or (fun s : TableStore => s.updateEvent rk change) s
    exact hor.imp (congrArg Backend.tables) fun hok => ⟨(), hok⟩

end Backend

namespace FaultyStore

theorem looks_getEvent (rk : String) :
    Looks (Store.getEvent rk : Action (FaultyStore Backend) StoreError _) :=
  (behind_guarded .getEvent rk _).looks fun b => by rw [Backend.runOn_getEvent]

theorem atomic_putEvent (rk : String) (e : Event) :
    Atomic (Store.putEvent rk e : Action (FaultyStore Backend) StoreError _) :=
  (behind_guarded .putEvent rk _).atomic fun b => Or.inr ⟨(), Backend.runOn_putEvent b rk e⟩

theorem atomic_updateEvent (rk : String) (change : Fields) :
    Atomic (Store.updateEvent rk change : Action (FaultyStore Backend) StoreError _) :=
  (behind_guarded .updateEvent rk _).atomic fun b => Backend.updateEvent_eq_or_ok b rk change

end FaultyStore

/-! ## 2. The tracker and the archive behind a plan -/

open FaultyStore

namespace Tracker

theorem behind_getStatus (id : String) :
    Behind (getStatus id : Action (FaultyStore Backend) StatusError _) (getStatus id) :=
  (behind_guarded .getStatus id _).rename _

theorem behind_keep (id rk : String) (r : StatusRecord) :
    Behind (process.keep id rk r : Action (FaultyStore Backend) StatusError _)
      (process.keep id rk r) :=
  ((behind_guarded .putStatus id _).rename _).bind_pure _

/-- **A check is refused and leaves the store, or does what it does without a plan**: it writes the
record at the very end, so that nothing can be refused after the write. -/
theorem behind_process (t : Tracker) (id rk : String) (c : Check) :
    Behind (t.process id rk c : Action (FaultyStore Backend) StatusError _) (t.process id rk c) := by
  have hlook (b : Backend) : ((getStatus id).runOn b).2 = b := by
    rw [Backend.runOn_trackerGet]
  refine Behind.bind_look (behind_getStatus id) hlook fun o => ?_
  cases o with
  | none => exact behind_keep id rk _
  | some r =>
    show Behind (if c.timestamp < r.timestamp then _ else _)
      (if c.timestamp < r.timestamp then _ else _)
    split
    · exact behind_pure r
    · exact Behind.bind_look (behind_ofExcept _) (fun _ => rfl) fun r' => behind_keep id rk r'

/-- What a check does to a store of any kind: it leaves it, and then a record that it gives is the one
that was there, or it writes the record that it gives. -/
theorem runOn_process (t : Tracker) (id rk : String) (c : Check) (b : Backend) :
    (((t.process id rk c).runOn b).2 = b ∧
        ∀ r, ((t.process id rk c).runOn b).1 = .ok r → b.recordAt id = .ok (some r)) ∨
      ∃ r, (t.process id rk c).runOn b = (.ok r, ((Store.putStatus id r).runOn b).2) := by
  unfold process
  cases hread : b.recordAt id with
  | error x =>
    rw [Action.runOn_bind, Backend.runOn_trackerGet, hread]
    exact Or.inl ⟨rfl, fun _ h => nomatch h⟩
  | ok o =>
    rw [Action.runOn_bind, Backend.runOn_trackerGet_of_ok hread]
    dsimp only
    cases o with
    | none =>
      dsimp only
      rw [Backend.runOn_trackerKeep]
      exact Or.inr ⟨_, rfl⟩
    | some r₀ =>
      dsimp only
      by_cases hstale : c.timestamp < r₀.timestamp
      · rw [if_pos hstale]
        refine Or.inl ⟨rfl, ?_⟩
        rintro _ ⟨⟩
        rfl
      · rw [if_neg hstale, Action.runOn_bind, Action.runOn_ofExcept]
        cases t.advance r₀ c with
        | error x => exact Or.inl ⟨rfl, fun _ h => nomatch h⟩
        | ok r =>
          dsimp only
          rw [Backend.runOn_trackerKeep]
          exact Or.inr ⟨_, rfl⟩

/-- After a check that went through, the record that it gives is the one that is found. -/
theorem store_of_process {t : Tracker} {id rk : String} {c : Check} {b b' : Backend}
    {r : StatusRecord} (h : (t.process id rk c).runOn b = (.ok r, b')) :
    b.SameEvents b' ∧
      ∀ j, b'.recordAt j = if j = id then .ok (some r) else b.recordAt j := by
  have hdone := runOn_process t id rk c b
  rw [h] at hdone
  rcases hdone with ⟨hleft, hread⟩ | ⟨r', hwritten⟩
  · have hleft : b' = b := hleft
    rw [hleft]
    refine ⟨Backend.SameEvents.refl _, fun j => ?_⟩
    split
    · rename_i hj
      rw [hj, hread r rfl]
    · rfl
  · obtain ⟨hr, hb'⟩ := Prod.mk.inj hwritten
    cases hr
    rw [hb']
    exact ⟨Backend.sameEvents_putStatus _ id r, Backend.recordAt_putStatus _ id r⟩

theorem atomic_process (t : Tracker) (id rk : String) (c : Check) :
    Atomic (t.process id rk c : Action (FaultyStore Backend) StatusError _) := by
  refine (behind_process t id rk c).atomic fun b => ?_
  rcases runOn_process t id rk c b with ⟨hleft, -⟩ | ⟨r, hwritten⟩
  · exact Or.inl hleft
  · exact Or.inr ⟨r, congrArg Prod.fst hwritten⟩

end Tracker

namespace Archive

/-- **An event is refused and leaves the store, or succeeds.** After the live record is written only
the log is left, and a log that cannot be written is no failure. -/
theorem atomic_merge (a : Archive) (now : Instant) (e : Event) :
    Atomic (a.process now e : Action (FaultyStore Backend) StoreError _) := by
  refine (looks_getEvent e.routingKey).bind_atomic fun o => ?_
  cases o with
  | none => exact (atomic_putEvent e.routingKey _).bind_sure fun _ => sure_pure false
  | some prior =>
    let stamped := (e.identified now).stamped prior (e.timestamp.getD now)
    let log : Action (FaultyStore Backend) StoreError Bool :=
      if logged stamped then
        tryAppend (logCopy e.routingKey (e.timestamp.getD now) stamped prior)
      else pure false
    have hlog : Sure log := by
      show Sure (if _ then _ else _)
      split
      · exact (sure_attempt _).bind fun _ => sure_pure _
      · exact sure_pure false
    show Atomic
      (if (stamped.changeOf a.excluded prior).isEmpty = true then log
      else Store.updateEvent e.routingKey (stamped.changeOf a.excluded prior) >>= fun _ => log)
    split
    · exact hlog.atomic
    · exact (atomic_updateEvent e.routingKey _).bind_sure fun _ => hlog

end Archive

/-! ## 3. The engine -/

theorem FaultyStore.Atomic.store_eq {σ ε α : Type} {x : Action (FaultyStore σ) ε α} (h : Atomic x)
    {s s' : FaultyStore σ} {e : ε} (hfail : x.runOn s = (.error e, s')) : s'.store = s.store := by
  have hs := h s
  rw [hfail] at hs
  exact hs.resolve_right fun ⟨_, hok⟩ => nomatch hok

namespace Engine

/-- **What an event that fails leaves behind.** Behind any plan of faults, live events and the log are
as they were. If the tracker was refused, so is everything. If the archive was refused, the record of
the entity is the one that the tracker made of the check, and all others are as they were; so the
records are as they were exactly when that record was there before.

That the event fails (`h`) is the only assumption. The store may hold anything, and the failure may be
a fault, a row that cannot be read, or a status without a rule. -/
theorem processEvent_failed (e : Engine) (now : Instant) (ev : Event) (s s' : FaultyStore Backend)
    (err : EngineError) (h : (e.processEvent now ev).runOn s = (.error err, s')) :
    s.store.SameEvents s'.store ∧
      ((∃ cause, err = .status cause) ∧ s'.store = s.store ∨
        ∃ cause id r, err = .store cause ∧ ev.entityId = .ok id ∧
          ((e.tracker.process id ev.routingKey ⟨ev.state, ev.timestamp.getD now⟩).runOn
            s.store).1 = .ok r ∧
          (∀ j, s'.store.recordAt j = if j = id then .ok (some r) else s.store.recordAt j) ∧
          ((∀ j, s'.store.recordAt j = s.store.recordAt j) ↔
            s.store.recordAt id = .ok (some r))) := by
  unfold processEvent at h
  cases hid : ev.entityId with
  | error x =>
    rw [hid] at h
    cases h
  | ok id =>
    rw [hid] at h
    rcases Action.runOn_bind_eq_error h with hstatus | ⟨r, s₁, hstatus, hrest⟩
    · -- The tracker was refused.
      obtain ⟨cause, rfl, hcheck⟩ := Action.runOn_rename_eq_error hstatus
      rw [(Tracker.atomic_process e.tracker id _ _).store_eq hcheck]
      exact ⟨Backend.SameEvents.refl _, Or.inl ⟨⟨cause, rfl⟩, rfl⟩⟩
    · -- The tracker went through and the archive was refused.
      have hcheck := Action.runOn_rename_eq_ok hstatus
      have hplain : (.ok r, s₁.store) = (e.tracker.process id ev.routingKey
          ⟨ev.state, ev.timestamp.getD now⟩).runOn s.store := by
        have hbehind := Tracker.behind_process e.tracker id ev.routingKey
          ⟨ev.state, ev.timestamp.getD now⟩ s
        rw [hcheck] at hbehind
        exact hbehind.resolve_left fun ⟨⟨_, hfail⟩, _⟩ => nomatch hfail
      obtain ⟨cause, rfl, hstore⟩ : ∃ cause, err = .store cause ∧ s'.store = s₁.store := by
        rcases Action.runOn_bind_eq_error hrest with harchive | ⟨_, _, _, hgive⟩
        · obtain ⟨cause, herr, harchive⟩ := Action.runOn_rename_eq_error harchive
          exact ⟨cause, herr, (Archive.atomic_merge e.archive now _).store_eq harchive⟩
        · cases hgive
      obtain ⟨hevents, hrecords⟩ := Tracker.store_of_process hplain.symm
      rw [hstore]
      refine ⟨hevents, Or.inr ⟨cause, id, r, rfl, rfl, congrArg Prod.fst hplain.symm, hrecords, ?_⟩⟩
      constructor
      · intro hsame
        rw [← hsame id, hrecords id, if_pos rfl]
      · intro hread j
        rw [hrecords j]
        split
        · rename_i hj
          rw [hj, hread]
        · rfl

/-- The web service is healthy, and no live event can be updated any more. -/
def unwritable : FaultyStore Backend :=
  ⟨[⟨.updateEvent, .notFound, none, none⟩],
    (((Engine.of .standard .standard).processEvent (atSecond 0) (.webCheck 0 1000)).runOn
      (Backend.memory .empty)).2⟩

/-- An alert of the web service. -/
def unwrittenAlert : Except EngineError (Option String) × FaultyStore Backend :=
  ((Engine.of .standard .standard).processEvent (atSecond 1) (.webCheck 2 1100)).runOn unwritable

theorem processEvent_failed_unwritable :
    unwrittenAlert.1 = .error (.store .notFound) ∧
      unwritable.store.SameEvents unwrittenAlert.2.store := by
  have hfail : unwrittenAlert.1 = .error (.store .notFound) := by decide +kernel
  exact ⟨hfail, (processEvent_failed (Engine.of .standard .standard) (atSecond 1) (.webCheck 2 1100)
    unwritable unwrittenAlert.2 (.store .notFound) (Prod.ext hfail rfl)).1⟩

/-- The alert fails, and its entity is in alert from then on. -/
theorem record_outlives_failure :
    unwrittenAlert.1 = .error (.store .notFound) ∧
      (unwritable.store.recordAt "/resource/nagios/n1/web01/http").map
        (Option.map StatusRecord.value) = .ok (some .off) ∧
      (unwrittenAlert.2.store.recordAt "/resource/nagios/n1/web01/http").map
        (Option.map StatusRecord.value) = .ok (some .ongoing) := by
  decide +kernel

end Engine
end AlertStatus
