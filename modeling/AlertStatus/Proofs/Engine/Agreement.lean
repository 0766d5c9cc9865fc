import AlertStatus.Proofs.Engine.Steps
import AlertStatus.Proofs.Event.Retention

/-!
# Records agree with live events

What is known of an entity stands in two documents. The tracker keeps a record, the archive a live
event, and each operation of the engine writes them one after the other by rules of its own: a merge
carries a cancellation over or drops it, an operator sets it, a sweep writes the status alone. `Agrees`
says that the two tell the same in between, and every move keeps it.

The record names its live event by a routing key, so this can only hold where entities and routing keys
belong together (`Addressed`). Then a move concerns one entity and the live event of that entity, and
`Agrees.move` reduces it to these two.
-/

set_option autoImplicit false

namespace AlertStatus

/-! ## 1. Statuses and cancellation -/

namespace StatusRecord

variable {p : Policy} {r : StatusRecord} {c : Check} {now : Instant}

/-- The status is the plain one of a healthy entity or of an entity in alert. -/
def Settled (r : StatusRecord) : Prop := r.value = .off ∨ r.value = .ongoing

theorem settled_first (state : CheckState) (timestamp : Instant) :
    (StatusRecord.first state timestamp).Settled := by
  unfold Settled StatusRecord.first
  by_cases h : state = .ok
  · simp [h]
  · simp [h]

theorem settled_settle (r : StatusRecord) (c : Check) : (r.settle c).Settled := by
  unfold Settled
  rw [settle_value]
  split
  · exact Or.inl rfl
  · exact Or.inr rfl

theorem Settled.ne_canceled (h : r.Settled) : r.value ≠ .canceled := by
  rcases h with h | h
  · rw [h]
    exact nofun
  · rw [h]
    exact nofun

/-- A rule of a status other than the canceled one never cancels. -/
theorem applyRule_ne_canceled (hv : r.value ≠ .canceled) :
    (r.value.applyRule r p c).value ≠ .canceled := by
  have hobserve : (r.observe p c).value ≠ .canceled := by
    rw [observe_value]
    exact hv
  unfold Status.applyRule
  split
  · unfold processOff
    split <;> exact nofun
  · unfold processOngoing
    dsimp only
    split
    · exact nofun
    split
    · split <;> exact nofun
    · split
      · exact hobserve
      · exact hobserve
  · unfold processStealthy
    dsimp only
    split
    · exact (settled_settle _ c).ne_canceled
    · split <;> exact nofun
  · unfold processFlapping
    dsimp only
    split
    · exact nofun
    · exact (settled_settle _ c).ne_canceled
  · rename_i hcanceled
    exact absurd hcanceled hv

/-- **A check cancels nothing, and what it leaves canceled was so**; otherwise a canceled entity
settles. This is what the merge needs: it carries a cancellation over unless the status is off or
ongoing. -/
theorem settled_or_canceled_iff_of_next (r : StatusRecord) (p : Policy) (c : Check) :
    (r.next p c).Settled ∨ ((r.next p c).value = .canceled ↔ r.value = .canceled) := by
  unfold Settled StatusRecord.next
  rw [stamp_value]
  by_cases hv : r.value = .canceled
  · rw [hv]
    show (r.processCanceled p c).Settled ∨ ((r.processCanceled p c).value = .canceled ↔ _)
    unfold processCanceled
    split
    · exact Or.inr ⟨fun _ => rfl, fun _ => hv⟩
    · exact Or.inl (settled_settle _ c)
  · exact Or.inr ⟨fun h => absurd h (applyRule_ne_canceled hv), fun h => absurd h hv⟩

theorem settled_restored (r : StatusRecord) (t : Instant) : (Tracker.restored r t).Settled :=
  settled_settle _ _

/-- A sweep neither cancels nor lifts a cancellation. -/
theorem resolve_canceled_iff (r : StatusRecord) (p : Policy) (now : Instant) :
    (r.resolve p now).value = .canceled ↔ r.value = .canceled := by
  unfold resolve
  dsimp only
  split
  · rename_i hv
    rw [hv]
    exact ⟨fun h => absurd h (settled_settle _ _).ne_canceled, nofun⟩
  · rename_i hv
    split
    · exact Iff.rfl
    · rw [hv]
      exact ⟨fun h => absurd h (settled_settle _ _).ne_canceled, nofun⟩
  · exact Iff.rfl

theorem settle_routingKey (r : StatusRecord) (c : Check) :
    (r.settle c).routingKey = r.routingKey := by
  unfold settle
  split <;> rfl

theorem resolve_routingKey (r : StatusRecord) (p : Policy) (now : Instant) :
    (r.resolve p now).routingKey = r.routingKey := by
  unfold resolve
  dsimp only
  split
  · exact settle_routingKey r _
  · split
    · rfl
    · exact settle_routingKey (r.prune now p.flappingTime) _
  · rfl

/-- The live event `e` tells what the record `r` does: it has the status of the record, and a
cancellation if that status is the canceled one. -/
structure ShownBy (r : StatusRecord) (e : Event) : Prop where
  status : e.status = some r.value
  cancel : e.cancel.isSome = true ↔ r.value = .canceled

end StatusRecord

namespace World

variable {es : List Event} {p : Policy} {now : Instant} {w w' : World}
  {id rk : String} {e s : Event} {r : StatusRecord}

/-! ## 2. The invariant -/

/-- The event `e` is live under `rk` on behalf of the entity `id`: some event of the run brought its
source there. -/
structure LivesAt (es : List Event) (e : Event) (rk id : String) : Prop where
  entity : e.entityId = .ok id
  brought : ∃ s ∈ es, s.routingKey = rk ∧ s.source = e.source

/-- Every live event has its place, and every record names the live event of its entity, which tells
what the record does. The first part is needed for the second one to last: an event is merged into the
live event of its key, and that must be the one of its entity. -/
structure Agrees (es : List Event) (w : World) : Prop where
  lives : ∀ rk e, w.live rk = some e → ∃ id, LivesAt es e rk id
  shown : ∀ id r, w.record id = some r → ∃ rk e,
    r.routingKey = some rk ∧ w.live rk = some e ∧ e.entityId = .ok id ∧ r.ShownBy e

theorem agrees_empty (es : List Event) : Agrees es World.empty where
  lives := fun _ _ h => by cases h
  shown := fun _ _ h => by cases h

/-- The entity of a place is the one of its routing key. -/
theorem LivesAt.eq_of_key (ha : Addressed es) {d : Event} {jd : String}
    (he : LivesAt es e rk id) (hd : LivesAt es d rk jd) : id = jd := by
  obtain ⟨s, hs, hsrk, hsource⟩ := he.brought
  obtain ⟨t, ht, htrk, htsource⟩ := hd.brought
  have hsame : e.source = d.source := by
    rw [← hsource, ← htsource]
    exact ha.source s hs t ht (hsrk.trans htrk.symm)
  have hentity := Event.entityId_of_source hsame
  rw [he.entity, hd.entity] at hentity
  exact Except.ok.inj hentity

/-- An entity has one place. -/
theorem LivesAt.eq_of_entity (ha : Addressed es) {d : Event} {rkd : String}
    (he : LivesAt es e rk id) (hd : LivesAt es d rkd id) : rk = rkd := by
  obtain ⟨s, hs, hsrk, hsource⟩ := he.brought
  obtain ⟨t, ht, htrk, htsource⟩ := hd.brought
  rw [← hsrk, ← htrk]
  refine ha.key s hs t ht id ?_ ?_
  · rw [Event.entityId_of_source hsource]
    exact he.entity
  · rw [Event.entityId_of_source htsource]
    exact hd.entity

theorem Agrees.livesAt (h : Agrees es w) (he : w.live rk = some e) (hid : e.entityId = .ok id) :
    LivesAt es e rk id := by
  obtain ⟨j, hj⟩ := h.lives rk e he
  have heq := hj.entity
  rw [hid] at heq
  cases heq
  exact hj

/-- The record of an entity and the live event under its place tell the same. -/
theorem Agrees.shownBy (h : Agrees es w) (ha : Addressed es) {d : Event}
    (hd : LivesAt es d rk id) (hr : w.record id = some r) :
    ∃ e, r.routingKey = some rk ∧ w.live rk = some e ∧ r.ShownBy e := by
  obtain ⟨rk', e, hrk', he, hid, hshown⟩ := h.shown id r hr
  have heq : rk = rk' := hd.eq_of_entity ha (h.livesAt he hid)
  exact ⟨e, heq ▸ hrk', heq ▸ he, hshown⟩

/-- **A move of one entity**: its record and its live event change together, and every other entity
has its own. -/
theorem Agrees.move (h : Agrees es w) (ha : Addressed es) (he : LivesAt es e rk id)
    (hrk : r.routingKey = some rk) (hshown : r.ShownBy e) :
    Agrees es ((w.setRecord id r).setLive rk e) where
  lives := by
    intro rk' e' he'
    rw [live_setLive] at he'
    split at he'
    · rename_i heq
      cases he'
      exact ⟨id, heq ▸ he⟩
    · exact h.lives rk' e' he'
  shown := by
    intro id' r' hr'
    rw [record_setLive, record_setRecord] at hr'
    split at hr'
    · rename_i heq
      cases hr'
      exact ⟨rk, e, hrk, by rw [live_setLive, if_pos rfl], heq ▸ he.entity, hshown⟩
    · -- Another entity has another key, so its live event was not touched.
      rename_i hne
      obtain ⟨rk', e', hrk', he', hid', hshown'⟩ := h.shown id' r' hr'
      have hkey : rk' ≠ rk := by
        rintro rfl
        exact hne ((h.livesAt he' hid').eq_of_key ha he)
      exact ⟨rk', e', hrk', by rw [live_setLive, if_neg hkey]; exact he', hid', hshown'⟩

/-! ## 3. The moves -/

/-- The place of an event that the run brings. -/
theorem LivesAt.of_brought (hs : s ∈ es) (hid : s.entityId = .ok id)
    (hsource : e.source = s.source) : LivesAt es e s.routingKey id where
  entity := by
    rw [Event.entityId_of_source hsource]
    exact hid
  brought := ⟨s, hs, rfl, hsource.symm⟩

/-- What a merge with the stamped event leaves, for an event with a status of its own that brings no
cancellation: the source of the event, its status, and the cancellation of the live event unless the
entity is settled. -/
theorem archived_some {excluded : List String} {prior d : Event} {v : Status}
    (hp : "status" ∉ excluded) (hcancel : s.cancel = none) (hsource : s.source = prior.source)
    (hd : archived? excluded now (reported now s v) (some prior) = some d) :
    d.source = s.source ∧ d.status = some v ∧
      d.cancel = if v = .off ∨ v = .ongoing then none else prior.cancel := by
  have hstamped : (((reported now s v).identified now).stamped prior
      ((reported now s v).timestamp.getD now)).effectiveStatus = v := by
    unfold Event.effectiveStatus
    rw [Event.stamped_status]
    rfl
  refine ⟨?_, ?_, ?_⟩
  · rw [hsource]
    refine Event.source_merged hd ?_
    rw [Event.stamped_source]
    exact hsource
  · refine Event.status_merged hd hp ?_
    rw [Event.stamped_status]
    rfl
  · rw [Event.cancel_merged hd (by rw [Event.stamped_cancel]; exact hcancel), hstamped]

/-- The record of an entity after a check under its routing key. -/
theorem checked_cases (p : Policy) (c : Check) (rk : String) {o : Option StatusRecord}
    (ho : ∀ r, o = some r → r.routingKey = some rk) :
    (checked p c rk o).routingKey = some rk ∧
      ((checked p c rk o).Settled ∨
        ∃ r, o = some r ∧ ((checked p c rk o).value = .canceled ↔ r.value = .canceled)) := by
  cases o with
  | none => exact ⟨rfl, Or.inl (StatusRecord.settled_first c.state c.timestamp)⟩
  | some r =>
    unfold checked
    dsimp only
    split
    · exact ⟨ho r rfl, Or.inr ⟨r, rfl, Iff.rfl⟩⟩
    · refine ⟨rfl, ?_⟩
      rcases r.settled_or_canceled_iff_of_next p c with h | h
      · exact Or.inl h
      · exact Or.inr ⟨r, rfl, h⟩

/-- **A check** keeps the two in agreement, also a stale one and also the first. A stale check leaves
the record, and the live event is merged with the status of that record all the same. -/
theorem Agrees.check (h : Agrees es w) (ha : Addressed es)
    (hp : "status" ∉ p.exclusionFields) (hs : s ∈ es) (hid : s.entityId = .ok id)
    {d : Event} {x : ExtraFields}
    (hr : r = checked p ⟨s.state, s.timestamp.getD now⟩ s.routingKey (w.record id))
    (hd : archived? p.exclusionFields now (reported now s r.value) (w.live s.routingKey) = some d) :
    Agrees es ((w.setRecord id r).setLive s.routingKey { d with extra := x }) := by
  have hplace : LivesAt es s s.routingKey id := .of_brought hs hid rfl
  obtain ⟨hrk, hvalue⟩ := checked_cases p ⟨s.state, s.timestamp.getD now⟩ s.routingKey
    (o := w.record id) fun r₀ hr₀ => (h.shownBy ha hplace hr₀).choose_spec.1
  rw [← hr] at hrk hvalue
  -- One entity moves, so it is enough that its new record and its new live event tell the same.
  suffices hd' : d.source = s.source ∧ r.ShownBy d from
    h.move ha (.of_brought hs hid hd'.1) hrk ⟨hd'.2.status, hd'.2.cancel⟩
  cases hlive : w.live s.routingKey with
  | none =>
    rw [hlive] at hd
    cases hd
    refine ⟨rfl, rfl, ?_⟩
    show s.cancel.isSome = true ↔ _
    rw [ha.uncanceled s hs]
    rcases hvalue with hsettled | ⟨r₀, hr₀, -⟩
    · exact ⟨nofun, fun hv => absurd hv hsettled.ne_canceled⟩
    · obtain ⟨e, -, he, -⟩ := h.shownBy ha hplace hr₀
      rw [hlive] at he
      cases he
  | some prior =>
    rw [hlive] at hd
    obtain ⟨j, hj⟩ := h.lives s.routingKey prior hlive
    obtain ⟨t, ht, htrk, htsource⟩ := hj.brought
    have hsource : s.source = prior.source := (ha.source s hs t ht htrk.symm).trans htsource
    obtain ⟨hdsource, hdstatus, hdcancel⟩ := archived_some hp (ha.uncanceled s hs) hsource hd
    refine ⟨hdsource, hdstatus, ?_⟩
    rw [hdcancel]
    by_cases hsettled : r.value = .off ∨ r.value = .ongoing
    · rw [if_pos hsettled]
      exact ⟨nofun, fun hv => absurd hv (StatusRecord.Settled.ne_canceled hsettled)⟩
    · -- Not settled: the cancellation of the live event is carried over, and the record had one too.
      rw [if_neg hsettled]
      obtain ⟨r₀, hr₀, hiff⟩ := hvalue.resolve_left hsettled
      obtain ⟨e, -, he, hshown⟩ := h.shownBy ha hplace hr₀
      rw [hlive] at he
      cases he
      exact hshown.cancel.trans hiff.symm

/-- The place and the record of an entity that an operator names by its routing key. -/
theorem Agrees.named (h : Agrees es w) (ha : Addressed es) (he : w.live rk = some e)
    (hid : e.entityId = .ok id) (hr : w.record id = some r) :
    LivesAt es e rk id ∧ r.routingKey = some rk ∧ r.ShownBy e := by
  have hplace := h.livesAt he hid
  obtain ⟨e', hrk, he', hshown⟩ := h.shownBy ha hplace hr
  rw [he] at he'
  cases he'
  exact ⟨hplace, hrk, hshown⟩

/-- A change of the live event alone that leaves alone what the record tells. -/
theorem Agrees.remark (h : Agrees es w) (he : w.live rk = some e) {d : Event}
    (hsource : d.source = e.source) (hstatus : d.status = e.status) (hcancel : d.cancel = e.cancel) :
    Agrees es (w.setLive rk d) where
  lives := by
    intro rk' e' he'
    rw [live_setLive] at he'
    split at he'
    · rename_i heq
      cases he'
      obtain ⟨id, hid, s, hs, hsrk, hssource⟩ := h.lives rk e he
      refine ⟨id, ?_, s, hs, hsrk.trans heq.symm, hssource.trans hsource.symm⟩
      rw [Event.entityId_of_source hsource]
      exact hid
    · exact h.lives rk' e' he'
  shown := by
    intro id r hr
    obtain ⟨rk', e', hrk', he', hid', hshown'⟩ := h.shown id r hr
    by_cases heq : rk' = rk
    · subst heq
      rw [he] at he'
      cases he'
      refine ⟨rk', d, hrk', by rw [live_setLive, if_pos rfl], ?_, ?_, ?_⟩
      · rw [Event.entityId_of_source hsource]
        exact hid'
      · rw [hstatus]
        exact hshown'.status
      · rw [hcancel]
        exact hshown'.cancel
    · exact ⟨rk', e', hrk', by rw [live_setLive, if_neg heq]; exact he', hid', hshown'⟩

theorem Agrees.resolves (h : Agrees es w) (ha : Addressed es)
    (hs : Resolves p now w w') : Agrees es w' := by
  obtain ⟨hr, -, hw⟩ := hs
  rename_i id r
  obtain ⟨rk, e, hrk, he, hid, hshown⟩ := h.shown id r hr
  have hrk' : (r.resolve p now).routingKey = some rk := (r.resolve_routingKey p now).trans hrk
  cases hw with
  | lost hlost =>
    -- A record names a live event, so none is missed.
    have hnone : w.live rk = none := hlost rk hrk'
    rw [he] at hnone
    cases hnone
  | @set rk₁ e₁ x hrk₁ he₁ =>
    rw [hrk'] at hrk₁
    cases hrk₁
    have heq : w.live rk = some e₁ := he₁
    rw [he] at heq
    cases heq
    have hplace : LivesAt es { e with status := some (r.resolve p now).value, extra := x } rk id :=
      ⟨hid, (h.livesAt he hid).brought⟩
    refine h.move ha hplace hrk' ⟨rfl, ?_⟩
    exact hshown.cancel.trans (r.resolve_canceled_iff p now).symm

/-- **A sweep** keeps the two in agreement, record by record. A resolution writes to the live event
that the record names, and this is the entity's own, since the routing keys fit the entities (`ha`). -/
theorem Agrees.sweeps (h : Agrees es w) (ha : Addressed es)
    (hs : Sweeps p now w w') : Agrees es w' := by
  induction hs with
  | refl => exact h
  | tail _ hlast ih => exact ih.resolves ha hlast

theorem Agrees.lift (h : Agrees es w) (ha : Addressed es) (he : w.live rk = some e)
    (hid : e.entityId = .ok id) (hr : w.record id = some r) (t : Instant) (x : ExtraFields) :
    Agrees es ((w.setRecord id (lifted r t)).setLive rk
      { e with cancel := none, status := some (lifted r t).value, extra := x }) := by
  obtain ⟨⟨hid', hplace⟩, hrk, hshown⟩ := h.named ha he hid hr
  suffices hl : (lifted r t).routingKey = some rk ∧ (lifted r t).value ≠ .canceled from
    h.move ha ⟨hid', hplace⟩ hl.1 ⟨rfl, nofun, fun hv => absurd hv hl.2⟩
  unfold lifted
  by_cases hv : r.value = .canceled
  · rw [if_pos hv]
    exact ⟨(StatusRecord.settle_routingKey _ _).trans hrk, (r.settled_restored t).ne_canceled⟩
  · rw [if_neg hv]
    exact ⟨hrk, hv⟩

/-- **Every move keeps records and live events in agreement.** The routing keys have to fit the
entities (`ha`), or two records would share a live event. The status is not excluded (`hp`), or a merge
would leave the one that the live event had. And what a check brings is one of the events of which all
this is said (`hc`). -/
theorem Agrees.step (h : Agrees es w) (ha : Addressed es)
    (hp : "status" ∉ p.exclusionFields) {c : EngineCommand}
    (hc : ∀ e, c = .processEvent e → e ∈ es) (hs : Step p now c w w') : Agrees es w' := by
  cases hs with
  | idle => exact h
  | check hid hr hd => exact h.check ha hp (hc _ rfl) hid hr hd
  | sweep hs => exact h.sweeps ha hs
  | beat hs => exact h.sweeps ha hs
  | @cancel _ rk id c e r x he hid hr =>
    obtain ⟨⟨hid', hplace⟩, hrk, -⟩ := h.named ha he hid hr
    exact h.move ha ⟨hid', hplace⟩ hrk ⟨rfl, fun _ => rfl, fun _ => rfl⟩
  | uncancel he hid hr => exact h.lift ha he hid hr _ _
  | acknowledge he => exact h.remark he rfl rfl rfl
  | removeAck he => exact h.remark he rfl rfl rfl

end World

/-! ## 4. Runs -/

namespace Backend

open World

/-- **In every state that a run from an empty store reaches, the record of an entity names a live
event, that event has the status of the record, and it carries a cancellation exactly if the entity is
canceled.** The commands come in any order and at any times.

If the status were excluded (`hp` fails), the merge of a check would leave the status of the live event
as it was. Entities and routing keys belong together (`ha`), for the reasons given at `Addressed`. The
events of the run are ones that the store keeps (`hkept`). In memory that is no condition, and every
store keeps the events that come from texts (`Medium.keeps_of_readText`). An event in tables that
cannot be read back would leave a live event that no look-up finds. -/
theorem agreement_of_run (m : Medium) (p : Policy) (hp : "status" ∉ p.exclusionFields)
    (run : List (Instant × EngineCommand)) (hkept : ∀ e ∈ brought run, m.Keeps e)
    (ha : Addressed (brought run)) (id : String) :
    ∃ o, (after p run (blank m)).recordAt id = .ok o ∧ ∀ r, o = some r → ∃ rk e,
      r.routingKey = some rk ∧ (after p run (blank m)).eventAt rk = .ok (some e) ∧
        e.status = some r.value ∧ (e.cancel.isSome = true ↔ r.value = .canceled) := by
  have hstep : ∀ c ∈ run, ∀ w w', Agrees (brought run) w → Step p c.1 c.2 w w' →
      Agrees (brought run) w' := by
    rintro ⟨now, c⟩ hc w w' hw hs
    refine hw.step ha hp ?_ hs
    rintro e rfl
    exact mem_brought hc rfl
  obtain ⟨w, hreflects, hagrees⟩ :=
    exists_reflects_after p run hkept hstep (reflects_blank m) (agrees_empty _)
  refine ⟨w.record id, hreflects.records id, fun r hr => ?_⟩
  obtain ⟨rk, e, hrk, he, -, hstatus, hcancel⟩ := hagrees.shown id r hr
  exact ⟨rk, e, hrk, (hreflects.events rk).trans (congrArg _ he), hstatus, hcancel⟩

/-- An alert is canceled at a time far ahead, a recovery comes too early to count, and the cancellation
is lifted at a time before all of it. -/
def canceledAhead : List (Instant × EngineCommand) :=
  [(atSecond 0, .processEvent (.webCheck 2 1000)),
    (atSecond 1, .cancel webKey ⟨"operator", none, atSecond 9000⟩),
    (atSecond 2, .processEvent (.webCheck 0 1100)),
    (atSecond 3, .uncancel webKey (atSecond (-5))),
    (atSecond 4, .processEvent (.webCheck 0 20)),
    (atSecond 5, .sweep (atSecond 5000))]

theorem brought_canceledAhead : ∀ e ∈ brought canceledAhead, ∃ s t, e = .webCheck s t := by
  intro e he
  fin_cases he
  · exact ⟨_, _, rfl⟩
  · exact ⟨_, _, rfl⟩
  · exact ⟨_, _, rfl⟩

theorem agreement_of_run_canceledAhead :
    "status" ∉ Policy.standard.exclusionFields ∧
      (∀ e ∈ brought canceledAhead, Medium.texts.Keeps e) ∧ Addressed (brought canceledAhead) ∧
      ∃ o, (after .standard canceledAhead (blank .texts)).recordAt "/resource/nagios/n1/web01/http" =
        .ok o ∧ ∀ r, o = some r → ∃ rk e, r.routingKey = some rk ∧
          (after .standard canceledAhead (blank .texts)).eventAt rk = .ok (some e) ∧
            e.status = some r.value ∧ (e.cancel.isSome = true ↔ r.value = .canceled) := by
  have hp : "status" ∉ Policy.standard.exclusionFields := by decide
  have hkept : ∀ e ∈ brought canceledAhead, Medium.texts.Keeps e := by
    intro e he
    obtain ⟨s, t, rfl⟩ := brought_canceledAhead e he
    exact keeps_webCheck _ s t
  have ha : Addressed (brought canceledAhead) := addressed_webChecks brought_canceledAhead
  exact ⟨hp, hkept, ha, agreement_of_run .texts .standard hp _ hkept ha _⟩

end Backend
end AlertStatus
