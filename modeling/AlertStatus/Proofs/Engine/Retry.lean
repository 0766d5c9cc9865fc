import AlertStatus.Proofs.Status.Renewal

/-!
# Trying again

An operator's command that a fault ended can be given again. It may have been half done: the record of
the entity was canceled or restored, and the live event was not marked. What is still to be done is then
what was to be done at first, since the tracker finds the record as it would have left it and leaves it
so (`Tracker.Lasting`), and the entity is looked up in a live event that was not touched.

So one attempt that fails changes nothing of what an attempt without faults gives and leaves
(`Resumes`), and by induction no number of them does (`retried`).
-/

set_option autoImplicit false

namespace AlertStatus

open AlertStatus.Action FaultyStore

/-! ## 1. Actions that can be resumed -/

section Attempts

variable {σ ε α β : Type}

/-- Attempts at an action that failed, one after the other, each behind a plan of its own: they lead
from one store to another. An attempt may fail at any of its store calls, and without any fault too. -/
inductive Attempts (x : Action (FaultyStore σ) ε α) : σ → σ → Prop where
  | none (b : σ) : Attempts x b b
  | failed {b b₁ : σ} {err : ε} {s : FaultyStore σ} (faults : List Fault) :
    Attempts x b b₁ → x.runOn ⟨faults, b₁⟩ = (.error err, s) → Attempts x b s.store

/-- After an attempt at `x` that failed, `y` comes to the same as before it. -/
def Resumes (x : Action (FaultyStore σ) ε α) (y : Action σ ε α) : Prop :=
  ∀ s s' err, x.runOn s = (.error err, s') → y.runOn s'.store = y.runOn s.store

/-- Once done, the action gives the same again and changes nothing more. -/
def Repeats (y : Action σ ε α) : Prop :=
  ∀ b b' a, y.runOn b = (.ok a, b') → y.runOn b' = (.ok a, b')

variable {x : Action (FaultyStore σ) ε α} {y : Action σ ε α}

theorem Resumes.runOn_eq (h : Resumes x y) {b b' : σ} (ha : Attempts x b b') :
    y.runOn b' = y.runOn b := by
  induction ha with
  | none => rfl
  | failed faults _ hfail ih => exact (h _ _ _ hfail).trans ih

theorem FaultyStore.Atomic.resumes (h : Atomic x) (y : Action σ ε α) : Resumes x y :=
  fun _ _ _ hfail => congrArg y.runOn (h.store_eq hfail)

theorem Resumes.bind_pure (h : Resumes x y) (f : α → β) :
    Resumes (x >>= fun a => pure (f a)) (y >>= fun a => pure (f a)) := by
  intro s s' err hfail
  rcases runOn_bind_eq_error hfail with hfirst | ⟨_, _, _, hgive⟩
  · rw [runOn_bind, runOn_bind, h s s' err hfirst]
  · cases hgive

/-- **Two writes**, of which the first may be done when the second is refused. It is then found done,
and gives what it gave before (`hrepeats`), so the second write is the one that it would have been. -/
theorem resumes_bind (hx : Behind x y) (hatomic : Atomic x) (hrepeats : Repeats y)
    {f : α → Action (FaultyStore σ) ε β} (hf : ∀ a, Atomic (f a)) (g : α → Action σ ε β) :
    Resumes (x >>= f) (y >>= g) := by
  intro s s' err hfail
  rcases runOn_bind_eq_error hfail with hfirst | ⟨a, s₁, hfirst, hsecond⟩
  · rw [hatomic.store_eq hfirst]
  · have hdone : y.runOn s.store = (.ok a, s₁.store) := by
      have hplain := hx s
      rw [hfirst] at hplain
      exact (hplain.resolve_left fun ⟨⟨_, h⟩, _⟩ => nomatch h).symm
    rw [(hf a).store_eq hsecond, runOn_bind, runOn_bind, hrepeats _ _ _ hdone, hdone]

end Attempts

/-! ## 2. The tracker -/

namespace Backend

/-- A record that is put again is there already. -/
theorem putStatus_again (b : Backend) (id : String) (r : StatusRecord) :
    ((Store.putStatus id r).runOn ((Store.putStatus id r).runOn b).2).2 =
      ((Store.putStatus id r).runOn b).2 := by
  cases b with
  | memory s =>
    exact congrArg (fun m => Backend.memory { s with statuses := m }) (s.statuses.insert_insert id r r)
  | tables s =>
    exact congrArg (fun m => Backend.tables { s with statuses := m })
      (s.statuses.insert_insert id (.of r) (.of r))

end Backend

namespace Tracker

/-- A change of a record behind a plan and without one: it is refused and leaves the store, or it is
done and lasts, and no live event is touched. -/
structure Lasting (x : Action (FaultyStore Backend) StatusError StatusRecord)
    (y : Action Backend StatusError StatusRecord) : Prop where
  behind : Behind x y
  atomic : Atomic x
  repeats : Repeats y
  events : ∀ b rk, (y.runOn b).2.eventAt rk = b.eventAt rk

variable (id : String) (time : Instant)

theorem behind_known :
    Behind (known id : Action (FaultyStore Backend) StatusError _) (known id) := by
  refine (behind_getStatus id).bind_look (fun b => by rw [Backend.runOn_trackerGet]) fun o => ?_
  cases o with
  | none => exact behind_fail _
  | some r => exact behind_pure r

/-- What is known of an entity, whether its record can be read or not. -/
theorem known_cases (b : Backend) :
    (∃ err, (known id).runOn b = (.error err, b)) ∨
      ∃ r, b.recordAt id = .ok (some r) ∧ (known id).runOn b = (.ok r, b) := by
  cases hread : b.recordAt id with
  | error x =>
    refine Or.inl ⟨readError id x, ?_⟩
    rw [known, runOn_bind, Backend.runOn_trackerGet, hread]
    rfl
  | ok o =>
    rw [runOn_known hread]
    cases o with
    | none => exact Or.inl ⟨_, rfl⟩
    | some r => exact Or.inr ⟨r, rfl, rfl⟩

theorem looks_known (b : Backend) : ((known id).runOn b).2 = b := by
  rcases known_cases id b with ⟨_, hrun⟩ | ⟨_, -, hrun⟩ <;> rw [hrun]

theorem behind_putStatus (r : StatusRecord) :
    Behind (putStatus id r : Action (FaultyStore Backend) StatusError _) (putStatus id r) :=
  (behind_guarded .putStatus id _).rename _

theorem atomic_putStatus (r : StatusRecord) :
    Atomic (putStatus id r : Action (FaultyStore Backend) StatusError _) :=
  (behind_putStatus id r).atomic fun b => Or.inr ⟨(), by rw [Backend.runOn_trackerPut]⟩

theorem runOn_cancel {b : Backend} {r : StatusRecord} (h : b.recordAt id = .ok (some r)) :
    (cancel id time).runOn b =
      (.ok (canceled r time), ((Store.putStatus id (canceled r time)).runOn b).2) := by
  rw [cancel, runOn_bind, runOn_known h]
  dsimp only
  rw [runOn_bind, Backend.runOn_trackerPut]
  rfl

theorem runOn_uncancel {b : Backend} {r : StatusRecord} (h : b.recordAt id = .ok (some r)) :
    (uncancel id time).runOn b =
      if r.value = .canceled then
        (.ok (restored r time), ((Store.putStatus id (restored r time)).runOn b).2)
      else (.ok r, b) := by
  rw [uncancel, runOn_bind, runOn_known h]
  dsimp only
  split
  · rw [runOn_bind, Backend.runOn_trackerPut]
    rfl
  · rfl

/-- A cancellation at the same time writes the same record again. -/
theorem lasting_cancel : Lasting (cancel id time) (cancel id time) where
  behind := (behind_known id).bind_look (looks_known id) fun r =>
    (behind_putStatus id (canceled r time)).bind_pure _
  atomic := ((behind_known id).looks (looks_known id)).bind_atomic fun r =>
    (atomic_putStatus id (canceled r time)).bind_sure fun _ => sure_pure _
  repeats := by
    intro b b' a h
    rcases known_cases id b with ⟨err, hrun⟩ | ⟨r, hread, -⟩
    · rw [cancel, runOn_bind, hrun] at h
      cases h
    · rw [runOn_cancel id time hread] at h
      cases h
      rw [runOn_cancel id time (recordAt_put b id _)]
      exact congrArg (Prod.mk _) (Backend.putStatus_again b id (canceled r time))
  events := by
    intro b rk
    rcases known_cases id b with ⟨err, hrun⟩ | ⟨r, hread, -⟩
    · rw [cancel, runOn_bind, hrun]
    · rw [runOn_cancel id time hread]
      exact Backend.eventAt_putStatus b id _ rk

theorem value_restored_ne (r : StatusRecord) : (restored r time).value ≠ .canceled := by
  show ({ r with flappingTimes := [] }.settle ⟨r.state, time⟩).value ≠ .canceled
  rw [StatusRecord.settle_value]
  split <;> decide

/-- **A record that was restored is not canceled any more**, so lifting the cancellation again finds
nothing to do. -/
theorem lasting_uncancel : Lasting (uncancel id time) (uncancel id time) where
  behind := by
    refine (behind_known id).bind_look (looks_known id) fun r => ?_
    show Behind (if r.value = .canceled then _ else _) (if r.value = .canceled then _ else _)
    split
    · exact (behind_putStatus id (restored r time)).bind_pure _
    · exact behind_pure r
  atomic := by
    refine ((behind_known id).looks (looks_known id)).bind_atomic fun r => ?_
    show Atomic (if r.value = .canceled then _ else _)
    split
    · exact (atomic_putStatus id (restored r time)).bind_sure fun _ => sure_pure _
    · exact (sure_pure r).atomic
  repeats := by
    intro b b' a h
    rcases known_cases id b with ⟨err, hrun⟩ | ⟨r, hread, -⟩
    · rw [uncancel, runOn_bind, hrun] at h
      cases h
    · have hplain := h
      rw [runOn_uncancel id time hread] at h
      split at h
      · cases h
        rw [runOn_uncancel id time (recordAt_put b id _), if_neg (value_restored_ne time r)]
      · cases h
        exact hplain
  events := by
    intro b rk
    rcases known_cases id b with ⟨err, hrun⟩ | ⟨r, hread, -⟩
    · rw [uncancel, runOn_bind, hrun]
    · rw [runOn_uncancel id time hread]
      split
      · exact Backend.eventAt_putStatus b id _ rk
      · rfl

end Tracker

/-! ## 3. The commands -/

namespace Engine

variable (rk : String)

/-- The entity of a live event, as it was looked up. -/
def entityIn : Except StoreError (Option Event) → Except EngineError String
  | .error x => .error (.store x)
  | .ok none => .error (.unknownEvent rk)
  | .ok (some e) => e.entityId.mapError .entity

theorem runOn_entityOf (b : Backend) : (entityOf rk).runOn b = (entityIn rk (b.eventAt rk), b) := by
  unfold entityOf onStore
  rw [runOn_bind, runOn_rename, Backend.runOn_getEvent]
  cases b.eventAt rk with
  | error x => rfl
  | ok o =>
    cases o with
    | none => rfl
    | some e =>
      dsimp only [Except.mapError, entityIn]
      cases e.entityId <;> rfl

theorem looks_entityOf (b : Backend) : ((entityOf rk).runOn b).2 = b := by
  rw [runOn_entityOf]

theorem behind_entityOf :
    Behind (entityOf rk : Action (FaultyStore Backend) EngineError _) (entityOf rk) := by
  have hlook (b : Backend) : ((onStore (Store.getEvent rk)).runOn b).2 = b := by
    rw [onStore, runOn_rename, Backend.runOn_getEvent]
  refine ((behind_guarded .getEvent rk _).rename EngineError.store).bind_look hlook fun o => ?_
  cases o with
  | none => exact behind_fail _
  | some e =>
    dsimp only
    cases e.entityId with
    | error x => exact behind_fail _
    | ok id => exact behind_pure id

theorem atomic_updateLive (change : Fields) :
    Atomic (onStore (Store.updateEvent rk change) : Action (FaultyStore Backend) EngineError Unit) :=
  (atomic_updateEvent rk change).rename _

/-- **A command that changes the record of the entity and then marks the live event.** -/
theorem resumes_marked {x : String → Action (FaultyStore Backend) StatusError StatusRecord}
    {y : String → Action Backend StatusError StatusRecord} (h : ∀ id, Tracker.Lasting (x id) (y id))
    (change : StatusRecord → Fields) :
    Resumes
      (do
        let entity ← entityOf rk
        let r ← onStatus (x entity)
        onStore (Store.updateEvent rk (change r))
        return r)
      (do
        let entity ← entityOf rk
        let r ← onStatus (y entity)
        onStore (Store.updateEvent rk (change r))
        return r) := by
  have hbehind : Behind (entityOf rk >>= fun id => onStatus (x id))
      (entityOf rk >>= fun id => onStatus (y id)) :=
    (behind_entityOf rk).bind_look (looks_entityOf rk) fun id => (h id).behind.rename _
  have hatomic : Atomic (entityOf rk >>= fun id => onStatus (x id)) :=
    ((behind_entityOf rk).looks (looks_entityOf rk)).bind_atomic fun id => (h id).atomic.rename _
  have hrepeats : Repeats (entityOf rk >>= fun id => onStatus (y id)) := by
    intro b b' r hrun
    obtain ⟨id, b₁, hentity, hstatus⟩ := runOn_bind_eq_ok hrun
    rw [runOn_entityOf] at hentity
    obtain ⟨hid, rfl⟩ := Prod.mk.inj hentity
    have hchange := runOn_rename_eq_ok hstatus
    have hlive : b'.eventAt rk = b.eventAt rk := by
      have hevents := (h id).events b rk
      rw [hchange] at hevents
      exact hevents
    rw [runOn_bind, runOn_entityOf, hlive, hid]
    dsimp only
    rw [onStatus, runOn_rename, (h id).repeats b b' r hchange]
    rfl
  have hmark (r : StatusRecord) : Atomic (do
      onStore (Store.updateEvent rk (change r))
      return r : Action (FaultyStore Backend) EngineError StatusRecord) :=
    (atomic_updateLive rk (change r)).bind_sure fun _ => sure_pure r
  have hboth := resumes_bind hbehind hatomic hrepeats hmark fun r => do
    onStore (Store.updateEvent rk (change r))
    return r
  rw [Action.bind_assoc, Action.bind_assoc] at hboth
  exact hboth

/-- A command that only marks the live event. -/
theorem resumes_remarked (change : Fields) :
    Resumes
      (do
        let _ ← entityOf rk
        onStore (Store.updateEvent rk change) : Action (FaultyStore Backend) EngineError Unit)
      (do
        let _ ← entityOf rk
        onStore (Store.updateEvent rk change) : Action Backend EngineError Unit) :=
  (((behind_entityOf rk).looks (looks_entityOf rk)).bind_atomic fun _ =>
    atomic_updateLive rk change).resumes _

end Engine

namespace EngineCommand

/-- The command is an operator's, about a live event. Checks are not among these: a check that was
counted before its event was refused finds another record when it comes again. -/
def Operator : EngineCommand → Prop
  | .cancel _ _ | .uncancel _ _ | .acknowledge _ _ | .removeAck _ => True
  | _ => False

theorem resumes_run (e : Engine) (now : Instant) {c : EngineCommand} (hc : c.Operator) :
    Resumes (c.run e now) (c.run e now : Action Backend EngineError Reply) := by
  cases c with
  | cancel rk remark =>
    exact (Engine.resumes_marked rk (fun id => Tracker.lasting_cancel id remark.timestamp) _).bind_pure _
  | uncancel rk time =>
    exact (Engine.resumes_marked rk (fun id => Tracker.lasting_uncancel id time) _).bind_pure _
  | acknowledge rk ack => exact (Engine.resumes_remarked rk _).bind_pure _
  | removeAck rk => exact (Engine.resumes_remarked rk _).bind_pure _
  | _ => exact hc.elim

/-- **Operators may try again.** However many attempts at a command failed, each at a store call of its
own, one without faults then gives and leaves what it would have at first.

The command has to be an operator's (`hc`). These commands bring their times along and do not look at
the clock (`now`), so it does not matter when they are given again. What one failed attempt leaves
behind is settled by `Tracker.Lasting` and `resumes_bind`; that there may have been any number of them
is the induction of `Resumes.runOn_eq`. -/
theorem retried (e : Engine) (now : Instant) {c : EngineCommand} (hc : c.Operator) {b b' : Backend}
    (h : Attempts (c.run e now) b b') :
    (c.run e now).runOn b' = (c.run e now : Action Backend EngineError Reply).runOn b :=
  (resumes_run e now hc).runOn_eq h

/-- An alert of the web service that was canceled. -/
def canceledWeb : Backend :=
  Action.runAll (EngineCommand.run (Engine.of .standard .standard) (atSecond 0))
    [.processEvent (.webCheck 2 1000), .cancel webKey ⟨"operator", none, atSecond 1050⟩]
    (Backend.memory .empty)

/-- The command that lifts the cancellation. -/
def lifting {σ : Type} [Store σ] : Action σ EngineError Reply :=
  (EngineCommand.uncancel webKey (atSecond 1100)).run (Engine.of .standard .standard) (atSecond 2)

/-- The record cannot be written. -/
def recordStruck : Except EngineError Reply × FaultyStore Backend :=
  lifting.runOn ⟨[⟨.putStatus, .backend, none, none⟩], canceledWeb⟩

/-- The record is written, and the live event cannot be. -/
def eventStruck : Except EngineError Reply × FaultyStore Backend :=
  lifting.runOn ⟨[⟨.updateEvent, .backend, none, none⟩], recordStruck.2.store⟩

/-- After two attempts the alert is half lifted, and the third one does what the first would have
done. -/
theorem retried_halfLifted :
    Attempts lifting canceledWeb eventStruck.2.store ∧
      (eventStruck.2.store.recordAt "/resource/nagios/n1/web01/http").map
        (Option.map StatusRecord.value) = .ok (some .ongoing) ∧
      eventStruck.2.store.glance webKey Event.status = .ok (some (some .canceled)) ∧
      lifting.runOn eventStruck.2.store = lifting.runOn canceledWeb := by
  have hrecord : recordStruck.1 = .error (.status (.store .backend)) := by decide +kernel
  have hevent : eventStruck.1 = .error (.store .backend) := by decide +kernel
  have hattempts : Attempts lifting canceledWeb eventStruck.2.store :=
    .failed [⟨.updateEvent, .backend, none, none⟩]
      (.failed [⟨.putStatus, .backend, none, none⟩] (.none canceledWeb) (Prod.ext hrecord rfl))
      (Prod.ext hevent rfl)
  refine ⟨hattempts, by decide +kernel, by decide +kernel, ?_⟩
  exact retried (Engine.of .standard .standard) (atSecond 2) (c := .uncancel webKey (atSecond 1100))
    trivial hattempts

end EngineCommand
end AlertStatus
