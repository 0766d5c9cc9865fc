import AlertStatus.Proofs.Engine.Sharing
import AlertStatus.Proofs.Event.Retention
import AlertStatus.Proofs.Store.Custody

/-!
# Acknowledgements stand

An operator acknowledges a live event. From then on every operation of the engine may write to the live
event, and events may bring an acknowledgement of their own, but the live event carries the one of the
operator and so does every entry that is added to its log. It ends with the first check that takes the
live event to off: that check clears it, and its own entry is the last one to carry it
(`acknowledgement_stands`).
-/

set_option autoImplicit false

namespace AlertStatus

open AlertStatus.Action

namespace Backend

variable {b₀ b b₁ : Backend} {rk : String} {P : Event → Prop} {Q : LogEntry → Prop}

/-! ## 1. What operations of an engine keep -/

section Operations

theorem ensures_entityOf (j : String) :
    (Engine.entityOf j).Ensures (Custody b₀ rk P Q) fun _ => True := by
  refine ((ensures_getEvent j).rename _).bind fun o _ => ?_
  cases o with
  | none => exact Ensures.fail _ _
  | some e =>
    dsimp only
    cases e.entityId with
    | error x => exact Ensures.fail _ _
    | ok id => exact Ensures.pure trivial

/-- A check writes the record of its entity and nothing under any key. -/
theorem ensures_trackerProcess (t : Tracker) (id j : String) (c : Check) :
    (t.process id j c).Ensures (Custody b₀ rk P Q) fun _ => True :=
  ensures_outside fun d => ((linked_outside_key rk d).process t trivial j c).ensures

variable (hP : Enduring P)

include hP

theorem ensures_cancel (j : String) (c : Remark) :
    (Engine.cancel j c).Ensures (Custody b₀ rk P Q) fun _ => True := by
  refine (ensures_entityOf j).bind fun id _ => ?_
  have htracker : (Tracker.cancel id c.timestamp).Ensures (Custody b₀ rk P Q) fun _ => True :=
    ensures_outside fun d => ((linked_outside_key rk d).cancel trivial c.timestamp).ensures
  refine (htracker.rename _).bind fun r _ => ?_
  exact ((ensures_markCanceled hP j c).rename _).bind fun _ _ => Ensures.pure trivial

theorem ensures_uncancel (j : String) (t : Instant) :
    (Engine.uncancel j t).Ensures (Custody b₀ rk P Q) fun _ => True := by
  refine (ensures_entityOf j).bind fun id _ => ?_
  have htracker : (Tracker.uncancel id t).Ensures (Custody b₀ rk P Q) fun _ => True :=
    ensures_outside fun d => ((linked_outside_key rk d).uncancel trivial t).ensures
  refine (htracker.rename _).bind fun r _ => ?_
  exact ((ensures_markUncanceled hP j r.value).rename _).bind fun _ _ => Ensures.pure trivial

theorem Custody.follow (h : Custody b₀ rk P Q b) (r : StatusRecord) :
    Custody b₀ rk P Q (Engine.follow r b) := by
  unfold Engine.follow
  cases r.routingKey with
  | none => exact h
  | some j => exact (ensures_setStatus hP j r.value b h).1

theorem Custody.sweepOne (e : Engine) (now : Instant) (id : String) {acc : SweepReport × Backend}
    (h : Custody b₀ rk P Q acc.2) : Custody b₀ rk P Q (e.sweepOne now acc id).2 := by
  have hexpire : (e.tracker.expire id now).Ensures (Custody b₀ rk P Q) fun _ => True :=
    ensures_outside fun d => ((linked_outside_key rk d).expire e.tracker trivial now).ensures
  have hb := (hexpire acc.2 h).1
  unfold Engine.sweepOne
  generalize (e.tracker.expire id now).runOn acc.2 = out at hb ⊢
  obtain ⟨_ | _ | r, b'⟩ := out
  · exact hb
  · exact hb
  · exact Custody.follow hP hb r

theorem Custody.foldl_sweepOne (e : Engine) (now : Instant) (ids : List String)
    {acc : SweepReport × Backend} (h : Custody b₀ rk P Q acc.2) :
    Custody b₀ rk P Q (ids.foldl (e.sweepOne now) acc).2 := by
  induction ids generalizing acc with
  | nil => exact h
  | cons id ids ih => exact ih (Custody.sweepOne hP e now id h)

/-- **A sweep** writes no more of a live record than its status, and nothing to the log. So it keeps
whatever endures such a write. -/
theorem Custody.sweep (e : Engine) (now : Instant) (h : Custody b₀ rk P Q b) :
    Custody b₀ rk P Q (e.sweep now b).2 := by
  have hfind := snd_runOn_findExpired e.tracker now b
  unfold Engine.sweep
  generalize (e.tracker.findExpired now).runOn b = out at hfind ⊢
  obtain ⟨_ | found, b'⟩ := out
  · exact hfind ▸ h
  · exact Custody.foldl_sweepOne hP e now _ (hfind ▸ h)

end Operations

/-! ## 2. Checks of the key -/

/-- The live event carries the acknowledgement. -/
def Acked (a : Remark) (e : Event) : Prop := e.ack = some a

/-- The entry carries the acknowledgement. -/
def AckedEntry (a : Remark) (d : LogEntry) : Prop := d.event.ack = some a

variable {a : Remark} {eng : Engine} {now : Instant} {ev : Event}

theorem enduring_acked : Enduring (Acked a) where
  extra _ _ h := h
  cancel _ _ _ h := h
  status _ _ h := h

/-- The copy of an event for the log has the acknowledgement of its live record. -/
theorem ackedEntry_copy {prior : Event} (h : Acked a prior) : AckedEntry a (ev.copy prior now) := by
  show (prior.ack <|> (ev.arriving prior now).ack) = some a
  rw [show prior.ack = some a from h]
  rfl

/-- **A check of the key** fails before it writes to the live event, or leaves the live event with a
status. If that is off the acknowledgement is gone, and else it is there still. The entries that were
added carry it in any case. The status must not be excluded (`hx`), so that the one that is seen is the
one by which the merge clears. -/
theorem Custody.check (h : Custody b₁ rk (Acked a) (AckedEntry a) b) (now : Instant)
    (hx : "status" ∉ eng.archive.excluded) (hkeeps : b₁.medium.Keeps ev) {id : String}
    (hid : ev.entityId = .ok id) (hrk : ev.routingKey = rk) :
    (∃ x b', (eng.processEvent now ev).runOn b = (.error x, b') ∧
      Custody b₁ rk (Acked a) (AckedEntry a) b') ∨
    (eng.processEvent now ev).Gives b fun _ b' => ∃ live, b'.eventAt rk = .ok (some live) ∧
      live.ack = (if live.status = some .off then none else some a) ∧
      ∃ l, Added rk l b₁ b' ∧ ∀ d ∈ l, AckedEntry a d := by
  unfold Engine.processEvent
  rw [hid]
  dsimp only
  let check : Action Backend EngineError StatusRecord :=
    Engine.onStatus (eng.tracker.process id ev.routingKey ⟨ev.state, ev.timestamp.getD now⟩)
  have htracker := ((ensures_trackerProcess eng.tracker id ev.routingKey
    ⟨ev.state, ev.timestamp.getD now⟩).rename EngineError.status b h).1
  cases hout : check.runOn b with
  | mk o b' =>
    have hb' : Custody b₁ rk (Acked a) (AckedEntry a) b' := by
      rw [← show (check.runOn b).2 = b' from congrArg Prod.snd hout]
      exact htracker
    cases o with
    | error x => exact Or.inl ⟨x, b', by rw [runOn_bind, hout], hb'⟩
    | ok r =>
      refine Or.inr ?_
      have hcheck : check.Gives b fun r' s' => r' = r ∧ s' = b' := ⟨r, b', hout, rfl, rfl⟩
      refine hcheck.bind ?_
      rintro r b' ⟨rfl, rfl⟩
      have hreported : (World.reported now ev r.value).routingKey = rk := hrk
      have hmerge := hb'.gives_archived eng.archive now hreported (hkeeps.of_extra rfl)
      refine (hmerge.rename _).bind fun _ b'' hmerged => gives_pure ?_
      obtain ⟨prior, d, x, hprior, hd, hlive, l, hl, hentries⟩ := hmerged
      have hstatus : d.status = some r.value :=
        Event.status_merged hd hx (Event.arriving_status _ prior now)
      have hack := Event.ack_merged_of_some hd hprior
      rw [Event.arriving_effectiveStatus] at hack
      refine ⟨_, hlive, ?_, l, hl, fun c hc => ?_⟩
      · have hoff : (World.reported now ev r.value).effectiveStatus = r.value := rfl
        show d.ack = if d.status = some .off then none else some a
        rw [hack, hstatus, hoff]
        simp only [Option.some.injEq]
      · rcases hentries c hc with hc | rfl
        · exact hc
        · exact ackedEntry_copy hprior

/-! ## 3. Runs -/

/-- The check is one of the key, it is processed, and it takes the live event to off. What it finds
before does not matter; a live event that a sweep has taken to off carries its acknowledgement until
such a check. -/
structure Recovers (eng : Engine) (rk : String) (now : Instant) (ev : Event) (b b' : Backend) :
    Prop where
  key : ev.routingKey = rk
  entity : ∃ id, ev.entityId = .ok id
  done : ∃ o, (eng.processEvent now ev).runOn b = (.ok o, b')
  off : ∃ live, b'.eventAt rk = .ok (some live) ∧ live.status = some .off

/-- The command neither removes an acknowledgement of the key nor sets another one. -/
def LeavesAck (rk : String) : EngineCommand → Prop
  | .acknowledge j _ => j ≠ rk
  | .removeAck j => j ≠ rk
  | _ => True

/-- No command of the run ends an acknowledgement of the key: none removes or replaces it, and no check
takes the live event to off. Sweeps and operators may take it there, as they leave the acknowledgement
(`unresolved_of_never_off` is the case in which nobody does). -/
def Unresolved (eng : Engine) (rk : String) : List (Instant × EngineCommand) → Backend → Prop
  | [], _ => True
  | (now, c) :: run, b =>
    let b' := ((c.run eng now).runOn b).2
    LeavesAck rk c ∧ (∀ ev, c = .processEvent ev → ¬ Recovers eng rk now ev b b') ∧
      Unresolved eng rk run b'

/-- So it is in particular where the live event is never off. -/
theorem unresolved_of_never_off {run : List (Instant × EngineCommand)}
    (hleaves : ∀ c ∈ run, LeavesAck rk c.2)
    (hoff : ∀ n ≤ run.length, ∀ live, (ranBy eng (run.take n) b).eventAt rk = .ok (some live) →
      live.status ≠ some .off) : Unresolved eng rk run b := by
  induction run generalizing b with
  | nil => trivial
  | cons c run ih =>
    refine ⟨hleaves c List.mem_cons_self, ?_, ih (fun d hd => hleaves d (List.mem_cons_of_mem _ hd)) ?_⟩
    · rintro ev - ⟨-, -, -, live, hlive, hstatus⟩
      exact hoff 1 (Nat.le_add_left 1 run.length) live hlive hstatus
    · exact fun n hn => hoff (n + 1) (Nat.succ_le_succ hn)

/-- **A check that is no recovery** leaves the acknowledgement (`hstill`). One that is refused, and one
of another key, writes nothing to the live event. One of the key goes by the status that the live event
shows in the end, so that must not be excluded (`hx`). -/
theorem Custody.processEvent (h : Custody b₁ rk (Acked a) (AckedEntry a) b)
    (hx : "status" ∉ eng.archive.excluded) (hkeeps : b₁.medium.Keeps ev)
    (hstill : ¬ Recovers eng rk now ev b ((eng.processEvent now ev).runOn b).2) :
    Custody b₁ rk (Acked a) (AckedEntry a) ((eng.processEvent now ev).runOn b).2 := by
  cases hid : ev.entityId with
  | error x =>
    unfold Engine.processEvent
    rw [hid]
    exact h
  | ok id =>
    by_cases hrk : ev.routingKey = rk
    · rcases h.check now hx hkeeps hid hrk with
        ⟨x, b', hrun, hb'⟩ | ⟨o, b', hrun, live, hlive, hack, l, hl, hentries⟩
      · rw [hrun]
        exact hb'
      · rw [hrun] at hstill ⊢
        have hstatus : live.status ≠ some .off := fun hoff =>
          hstill ⟨hrk, ⟨id, hid⟩, ⟨o, hrun⟩, live, hlive, hoff⟩
        rw [if_neg hstatus] at hack
        exact ⟨⟨live, hlive, hack⟩, l, hl, hentries⟩
    · have houtside : (eng.processEvent now ev).Ensures (Custody b₁ rk (Acked a) (AckedEntry a))
          fun _ => True := by
        refine ensures_outside fun d => Matches.ensures ?_
        exact (linked_outside_key rk d).processEvent eng now (fun _ _ => trivial) hrk
          fun _ _ _ => trivial
      exact (houtside b h).1

/-- **Every command that does not end the acknowledgement** leaves it. Of most commands this can be
told by themselves (`hleaves`). Of a check it cannot: whether it takes the live event to off also
depends on the record of its entity (`hstill`). -/
theorem Custody.command (h : Custody b₁ rk (Acked a) (AckedEntry a) b)
    (hx : "status" ∉ eng.archive.excluded) {c : EngineCommand}
    (hkept : ∀ ev, c.event? = some ev → b₁.medium.Keeps ev) (hleaves : LeavesAck rk c)
    (hstill : ∀ ev, c = .processEvent ev → ¬ Recovers eng rk now ev b ((c.run eng now).runOn b).2) :
    Custody b₁ rk (Acked a) (AckedEntry a) ((c.run eng now).runOn b).2 := by
  cases c with
  | processEvent ev =>
    have hsame : (((EngineCommand.processEvent ev).run eng now).runOn b).2 =
        ((eng.processEvent now ev).runOn b).2 := snd_runOn_map _ _ b
    rw [hsame] at hstill ⊢
    exact h.processEvent hx (hkept ev rfl) (hstill ev rfl)
  | sweep t => exact Custody.sweep enduring_acked eng t h
  | beat t => exact Custody.sweep enduring_acked eng (t.getD now) h
  | cancel j remark => exact (((ensures_cancel enduring_acked j remark).map _) b h).1
  | uncancel j t => exact (((ensures_uncancel enduring_acked j t).map _) b h).1
  | acknowledge j ack =>
    have hmark : (Engine.acknowledge j ack).Ensures (Custody b₁ rk (Acked a) (AckedEntry a))
        fun _ => True :=
      (ensures_entityOf j).bind fun _ _ =>
        (ensures_acknowledge enduring_acked j (fun hj => absurd hj hleaves) ack).rename _
    exact ((hmark.map fun _ => Reply.nothing) b h).1
  | removeAck j =>
    have hmark : (Engine.removeAck j).Ensures (Custody b₁ rk (Acked a) (AckedEntry a))
        fun _ => True :=
      (ensures_entityOf j).bind fun _ _ =>
        (ensures_removeAck enduring_acked j fun hj => absurd hj hleaves).rename _
    exact ((hmark.map fun _ => Reply.nothing) b h).1
  | status entity =>
    have hlook : (Tracker.getStatus entity).Ensures (Custody b₁ rk (Acked a) (AckedEntry a))
        fun _ => True :=
      ensures_outside fun d => ((linked_outside_key rk d).trackerGet trivial).ensures
    exact (((hlook.rename _).map _) b h).1
  | event j => exact ((((ensures_getEvent j).rename _).map _) b h).1
  | history j => exact ((((ensures_getLog j).rename _).map _) b h).1
  | policy => exact h

theorem Custody.ranBy (h : Custody b₁ rk (Acked a) (AckedEntry a) b)
    (hx : "status" ∉ eng.archive.excluded) (run : List (Instant × EngineCommand))
    (hkept : ∀ ev ∈ brought run, b₁.medium.Keeps ev) (hrun : Unresolved eng rk run b) :
    Custody b₁ rk (Acked a) (AckedEntry a) (ranBy eng run b) := by
  induction run generalizing b with
  | nil => exact h
  | cons c run ih =>
    obtain ⟨hleaves, hstill, hrest⟩ := hrun
    refine ih (h.command hx ?_ hleaves hstill) (fun ev hev => ?_) hrest
    · exact fun ev hev => hkept ev (mem_brought List.mem_cons_self hev)
    · obtain ⟨d, hd, hev'⟩ := List.mem_filterMap.mp hev
      exact hkept ev (mem_brought (List.mem_cons_of_mem _ hd) hev')

/-- A command by a key that finds the entity has found a live event. -/
theorem exists_of_entityOf {b' : Backend} {id : String}
    (h : (Engine.entityOf rk).runOn b = (.ok id, b')) :
    b' = b ∧ ∃ e, b.eventAt rk = .ok (some e) := by
  obtain ⟨o, b₂, hget, hrest⟩ := runOn_bind_eq_ok h
  have hlook := runOn_rename_eq_ok hget
  rw [runOn_getEvent] at hlook
  obtain ⟨ho, rfl⟩ := Prod.mk.inj hlook
  cases o with
  | none => cases hrest
  | some e =>
    dsimp only at hrest
    cases hid : e.entityId with
    | error x =>
      rw [hid] at hrest
      cases hrest
    | ok i =>
      rw [hid] at hrest
      cases hrest
      exact ⟨rfl, e, ho⟩

/-- **An acknowledgement that succeeds** is on the live event. As it succeeds (`hack`) there was one
that could be read, so nothing else has to be asked of the store before. -/
theorem custody_acknowledged (hack : (Engine.acknowledge rk a).runOn b = (.ok (), b₁)) :
    b₁.medium = b.medium ∧ Custody b₁ rk (Acked a) (AckedEntry a) b₁ := by
  obtain ⟨id, b', hentity, hmark⟩ := runOn_bind_eq_ok hack
  obtain ⟨rfl, e, he⟩ := exists_of_entityOf hentity
  have hupdate := runOn_rename_eq_ok hmark
  rw [Archive.acknowledge, runOn_updateEvent he (e.update?_ack a)] at hupdate
  obtain ⟨x, hgives, -⟩ := ((keeps_of_eventAt he).of_extra (d := { e with ack := some a }) rfl).gives
  have hb₁ : b₁ = ((Store.putEvent rk { e with ack := some a }).runOn b').2 :=
    (congrArg Prod.snd hupdate).symm
  have hlive : b₁.eventAt rk = .ok (some { e with ack := some a, extra := x }) := by
    rw [hb₁, eventAt_putEvent hgives, if_pos rfl]
  refine ⟨?_, custody_self hlive rfl⟩
  rw [hb₁]
  exact medium_putEvent b' rk _

/-- **An acknowledgement stands until the check that ends the alert.** Once an operator has
acknowledged a live event (`hack`), it carries this acknowledgement through every run that does not end
it (`hrun`), and so does every entry that is added to its log. The first check that takes it to off
clears the acknowledgement, and its own entry, if it has one, carries it still. The store may hold
anything before, and the events may bring acknowledgements of their own.

The status is not excluded (`hx`). Otherwise a check could clear the acknowledgement and leave the live
event with the status of the alert. The events are ones that the store keeps (`hkept`). That is nothing
in memory, and in tables it says that they can be read back; every store keeps the events that come
from texts (`Medium.keeps_of_readText`). With one that cannot be read back the live event could not be
looked up at all. -/
theorem acknowledgement_stands (eng : Engine) (hx : "status" ∉ eng.archive.excluded)
    (hack : (Engine.acknowledge rk a).runOn b = (.ok (), b₁)) (run : List (Instant × EngineCommand))
    (hkept : ∀ ev ∈ brought run, b.medium.Keeps ev) (hrun : Unresolved eng rk run b₁) :
    ((∃ live, (ranBy eng run b₁).eventAt rk = .ok (some live) ∧ live.ack = some a) ∧
      ∃ l, Added rk l b₁ (ranBy eng run b₁) ∧ ∀ d ∈ l, d.event.ack = some a) ∧
    ∀ now ev b₂, b.medium.Keeps ev → Recovers eng rk now ev (ranBy eng run b₁) b₂ →
      (∃ live, b₂.eventAt rk = .ok (some live) ∧ live.ack = none) ∧
        ∃ l, Added rk l b₁ b₂ ∧ ∀ d ∈ l, d.event.ack = some a := by
  obtain ⟨hmedium, hacked⟩ := custody_acknowledged hack
  rw [← hmedium] at hkept ⊢
  have hafter := hacked.ranBy hx run hkept hrun
  refine ⟨⟨hafter.live, hafter.log⟩, fun now ev b₂ hkeeps hrecovers => ?_⟩
  obtain ⟨hrk, ⟨id, hid⟩, ⟨o, hdone⟩, live, hlive, hoff⟩ := hrecovers
  rcases hafter.check now hx hkeeps hid hrk with
    ⟨x, b', hrun', -⟩ | ⟨o', b', hrun', live', hlive', hack', l, hl, hentries⟩
  · rw [hdone] at hrun'
    cases hrun'
  · rw [hdone] at hrun'
    cases hrun'
    rw [hlive] at hlive'
    cases hlive'
    rw [if_pos hoff] at hack'
    exact ⟨⟨live, hlive, hack'⟩, l, hl, hentries⟩

/-- An alert. -/
def oneOutage : Backend :=
  ranBy standardEngine [(atSecond 0, .processEvent (.webCheck 2 1000))] (blank .values)

def byOperator : Remark := ⟨"operator", none, atSecond 1005⟩

/-- It is acknowledged. -/
def ackedOutage : Except EngineError Unit × Backend :=
  (Engine.acknowledge webKey byOperator).runOn oneOutage

/-- It is reported again, with an acknowledgement by somebody else, and a sweep passes. -/
def longOutage : List (Instant × EngineCommand) :=
  [(atSecond 1, .processEvent
      { Event.webCheck 1 1010 with ack := some ⟨"robot", none, atSecond 1010⟩ }),
    (atSecond 2, .sweep (atSecond 1030))]

/-- At last it is over. -/
def recovered : Except EngineError (Option String) × Backend :=
  (standardEngine.processEvent (atSecond 3) (.webCheck 0 2000)).runOn
    (ranBy standardEngine longOutage ackedOutage.2)

theorem unresolved_longOutage : Unresolved standardEngine webKey longOutage ackedOutage.2 := by
  have hleaves : ∀ c ∈ longOutage, LeavesAck webKey c.2 := by
    intro c hc
    fin_cases hc <;> exact trivial
  have hstatus : ∀ n < 3, (ranBy standardEngine (longOutage.take n) ackedOutage.2).glance webKey
      (fun e => decide (e.status ≠ some .off)) = .ok (some true) := by
    decide +kernel
  refine unresolved_of_never_off hleaves fun n hn live hlive => ?_
  obtain ⟨e, he, hoff⟩ := exists_of_glance (hstatus n (Nat.lt_succ_of_le hn))
  rw [hlive] at he
  cases he
  exact of_decide_eq_true hoff

theorem recovers_recovered : Recovers standardEngine webKey (atSecond 3) (.webCheck 0 2000)
    (ranBy standardEngine longOutage ackedOutage.2) recovered.2 := by
  obtain ⟨hdone, hstatus⟩ : recovered.1 = .ok none ∧
      recovered.2.glance webKey Event.status = .ok (some (some .off)) := by
    decide +kernel
  have hrun : recovered = (.ok none, recovered.2) :=
    Prod.mk.eta.symm.trans (congrArg (fun o => (o, recovered.2)) hdone)
  exact ⟨by decide, ⟨_, rfl⟩, ⟨_, hrun⟩, exists_of_glance hstatus⟩

/-- The acknowledgement of the operator stands all the time, and the recovery clears it. -/
theorem acknowledgement_stands_longOutage :
    (∃ live, (ranBy standardEngine longOutage ackedOutage.2).eventAt webKey = .ok (some live) ∧
      live.ack = some byOperator) ∧
    ∃ live, recovered.2.eventAt webKey = .ok (some live) ∧ live.ack = none := by
  have hdone : ackedOutage.1 = .ok () := by decide +kernel
  have hack : ackedOutage = (.ok (), ackedOutage.2) :=
    Prod.mk.eta.symm.trans (congrArg (fun o => (o, ackedOutage.2)) hdone)
  obtain ⟨⟨hstands, -⟩, hcleared⟩ := acknowledgement_stands standardEngine (by decide) hack
    longOutage (fun _ _ => trivial) unresolved_longOutage
  exact ⟨hstands, (hcleared (atSecond 3) _ recovered.2 trivial recovers_recovered).1⟩

end Backend
end AlertStatus
