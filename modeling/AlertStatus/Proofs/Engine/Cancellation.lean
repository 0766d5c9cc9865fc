import AlertStatus.Proofs.Engine.Agreement
import AlertStatus.Proofs.Engine.Sharing

/-!
# Cancellations stand

Unless a changing state lifts cancellations, an entity that was canceled in alert stays canceled while
it is in alert. Checks that come too late do not count, whatever they say. `Canceled` is what a
cancellation leaves in the two documents, and no check, sweep or acknowledgement takes it away
(`cancellation_stands`).

The status that the live event shows is another matter. A sweep writes it on behalf of the record that
it resolves, which is that of another entity when two of them share the live event. So the live event
shows the cancellation as long as no such record is transient (`Unclaimed`), and
`cancellation_overwritten` is what happens otherwise.
-/

set_option autoImplicit false

namespace AlertStatus

namespace StatusRecord

variable {p : Policy} {r : StatusRecord} {c : Check} {now : Instant}

/-- The status is one that a sweep may resolve. -/
def Transient (r : StatusRecord) : Prop := r.value = .stealthy ∨ r.value = .flapping

theorem transient_of_isExpired {stealthyShow flappingTime : Instant}
    (h : r.isExpired now stealthyShow flappingTime = true) : r.Transient :=
  (isExpired_iff.mp h).imp And.left And.left

/-- Canceled, and in alert when last heard of. -/
def CanceledInAlert (r : StatusRecord) : Prop := r.value = .canceled ∧ r.state ≠ .ok

theorem CanceledInAlert.not_transient (h : r.CanceledInAlert) : ¬ r.Transient := by
  rintro (hv | hv)
  · exact Status.noConfusion (h.1.symm.trans hv)
  · exact Status.noConfusion (h.1.symm.trans hv)

/-- **Another alert leaves the entity canceled in alert.** With `restoreEvent` any check takes it out
of the cancellation (`hp`), and so does a healthy one in any case (`hc`). -/
theorem CanceledInAlert.next (h : r.CanceledInAlert) (hp : p.restoreEvent = false)
    (hc : c.state ≠ .ok) : (r.next p c).CanceledInAlert := by
  have hrule : r.value.applyRule r p c = r := by
    rw [h.1]
    exact if_pos ⟨hp, hc, h.2⟩
  refine ⟨?_, ?_⟩
  · rw [StatusRecord.next, stamp_value, hrule]
    exact h.1
  · rw [StatusRecord.next, stamp_state]
    exact hc

end StatusRecord

/-! ## 1. Commands that leave a cancellation -/

/-- The command leaves the cancellation of an entity whose record is `o`. It is a check of the entity
under its routing key that is an alert or comes too late, a check of another entity under another key,
or it neither cancels nor lifts a cancellation.

Checks that mix the two are left out. One of the entity under another key would make its record name
another live event, and one of another entity under this key is merged into the live event with the
status of that entity. -/
def EngineCommand.Spares (id rk : String) (now : Instant) (o : Option StatusRecord) :
    EngineCommand → Prop
  | .processEvent e =>
    (e.entityId = .ok id ∧ e.routingKey = rk ∧
      (e.state ≠ .ok ∨ ∃ r, o = some r ∧ e.timestamp.getD now < r.timestamp)) ∨
    (e.entityId ≠ .ok id ∧ e.routingKey ≠ rk)
  | .cancel _ _ => False
  | .uncancel _ _ => False
  | _ => True

namespace World

variable {p : Policy} {now : Instant} {w w' : World} {id rk : String} {cancel : Remark}

/-! ## 2. What a cancellation leaves -/

/-- The entity is canceled in alert, and its live event carries the cancellation. Which status the live
event shows is not part of it, since a sweep may write another one there. -/
structure Canceled (w : World) (id rk : String) (cancel : Remark) : Prop where
  record : ∃ r, w.record id = some r ∧ r.CanceledInAlert
  live : ∃ e, w.live rk = some e ∧ e.cancel = some cancel

/-- No record of another entity that names the live event may be resolved by a sweep. It lasts as long
as no other entity is checked under the key. -/
def Unclaimed (w : World) (id rk : String) : Prop :=
  ∀ j r, j ≠ id → w.record j = some r → r.routingKey = some rk → ¬ r.Transient

/-- The live event shows the cancellation, and no other entity will write there. -/
structure Shown (w : World) (id rk : String) : Prop where
  status : ∃ e, w.live rk = some e ∧ e.status = some .canceled
  unclaimed : w.Unclaimed id rk

/-! ## 3. Checks -/

theorem canceledInAlert_checked {r : StatusRecord} (h : r.CanceledInAlert)
    (hp : p.restoreEvent = false) {c : Check} (hc : c.state ≠ .ok ∨ c.timestamp < r.timestamp)
    (rk : String) : (checked p c rk (some r)).CanceledInAlert := by
  unfold checked
  dsimp only
  split
  · exact h
  · rename_i hfresh
    exact h.next hp (hc.resolve_right hfresh)

/-- The record after a check is the one of before or has the key of the event. -/
theorem checked_eq_or_routingKey (p : Policy) (c : Check) (rk : String) (o : Option StatusRecord) :
    o = some (checked p c rk o) ∨ (checked p c rk o).routingKey = some rk := by
  cases o with
  | none => exact Or.inr rfl
  | some r =>
    unfold checked
    dsimp only
    split
    · exact Or.inl rfl
    · exact Or.inr rfl

/-- A merge on behalf of a canceled entity keeps the cancellation, and the status if it is shown. -/
theorem archived_canceled {excluded : List String} {ev prior d : Event}
    (hd : archived? excluded now (reported now ev .canceled) (some prior) = some d)
    (hprior : prior.cancel = some cancel) :
    d.cancel = some cancel ∧ (prior.status = some .canceled → d.status = some .canceled) := by
  have hstatus : (((reported now ev .canceled).identified now).stamped prior
      ((reported now ev .canceled).timestamp.getD now)).status = some .canceled := by
    rw [Event.stamped_status]
    rfl
  refine ⟨?_, fun hs => ?_⟩
  · rw [Event.cancel_merged_of_some hd hprior, Event.effectiveStatus, hstatus]
    rfl
  · rw [Event.status_merged_of_eq hd (hstatus.trans hs.symm)]
    exact hs

/-- **A check of the entity itself** that is an alert or comes too late: the entity stays canceled in
alert, and its live event keeps what it shows. -/
theorem Canceled.check (h : w.Canceled id rk cancel) (hp : p.restoreEvent = false) {ev d : Event}
    {r : StatusRecord} {x : ExtraFields}
    (hlate : ev.state ≠ .ok ∨ ∃ r, w.record id = some r ∧ ev.timestamp.getD now < r.timestamp)
    (hr : r = checked p ⟨ev.state, ev.timestamp.getD now⟩ rk (w.record id))
    (hd : archived? p.exclusionFields now (reported now ev r.value) (w.live rk) = some d) :
    ((w.setRecord id r).setLive rk { d with extra := x }).Canceled id rk cancel ∧
      (w.Shown id rk → ((w.setRecord id r).setLive rk { d with extra := x }).Shown id rk) := by
  obtain ⟨r₀, hr₀, hcanceled⟩ := h.record
  obtain ⟨e, he, hcancel⟩ := h.live
  have hlate' : ev.state ≠ .ok ∨ ev.timestamp.getD now < r₀.timestamp := by
    refine hlate.imp_right fun ⟨r₁, hr₁, hlt⟩ => ?_
    rw [hr₀] at hr₁
    cases hr₁
    exact hlt
  have hcanceled' : r.CanceledInAlert := by
    rw [hr, hr₀]
    exact canceledInAlert_checked hcanceled hp hlate' rk
  rw [he, hcanceled'.1] at hd
  obtain ⟨hcancel', hstatus'⟩ := archived_canceled hd hcancel
  refine ⟨⟨⟨r, if_pos rfl, hcanceled'⟩, _, if_pos rfl, hcancel'⟩, fun hshown => ⟨?_, ?_⟩⟩
  · obtain ⟨e₁, he₁, hstatus⟩ := hshown.status
    rw [he] at he₁
    cases he₁
    exact ⟨_, if_pos rfl, hstatus' hstatus⟩
  · intro k s hk hs hsrk
    exact hshown.unclaimed k s hk ((if_neg hk).symm.trans hs) hsrk

/-- **A check of another entity under another key** touches neither of the two documents, and its record
names the live event no more than before. -/
theorem Canceled.check_other (h : w.Canceled id rk cancel) {j key : String} (hj : id ≠ j)
    (hkey : rk ≠ key) {r : StatusRecord} (hr : w.record j = some r ∨ r.routingKey = some key)
    (e : Event) :
    ((w.setRecord j r).setLive key e).Canceled id rk cancel ∧
      (w.Shown id rk → ((w.setRecord j r).setLive key e).Shown id rk) := by
  obtain ⟨r₀, hr₀, hcanceled⟩ := h.record
  obtain ⟨e₀, he₀, hcancel⟩ := h.live
  have hrecord : ((w.setRecord j r).setLive key e).record id = w.record id := if_neg hj
  have hlive : ((w.setRecord j r).setLive key e).live rk = w.live rk := if_neg hkey
  refine ⟨⟨⟨r₀, hrecord.trans hr₀, hcanceled⟩, e₀, hlive.trans he₀, hcancel⟩, fun hshown => ⟨?_, ?_⟩⟩
  · rw [hlive]
    exact hshown.status
  · intro k s hk hs hsrk
    rw [record_setLive, record_setRecord] at hs
    split at hs
    · rename_i hkj
      cases hs
      subst hkj
      rcases hr with hsame | hnew
      · exact hshown.unclaimed k r hk hsame hsrk
      · rw [hnew] at hsrk
        exact absurd (Option.some.inj hsrk).symm hkey
    · exact hshown.unclaimed k s hk hs hsrk

/-! ## 4. Sweeps -/

theorem Follows.record {r : StatusRecord} (h : Follows r w w') : w'.record = w.record := by
  cases h <;> rfl

/-- A record that is not transient is passed over. -/
theorem Resolves.record_of_not_transient (h : Resolves p now w w') {r : StatusRecord}
    (hr : w.record id = some r) (ht : ¬ r.Transient) : w'.record id = some r := by
  obtain ⟨hr₁, hexp, hw⟩ := h
  rw [hw.record, record_setRecord]
  split
  · rename_i heq
    subst heq
    rw [hr] at hr₁
    cases hr₁
    exact absurd (StatusRecord.transient_of_isExpired hexp) ht
  · exact hr

theorem Canceled.resolves (h : w.Canceled id rk cancel) (hs : Resolves p now w w') :
    w'.Canceled id rk cancel := by
  obtain ⟨r, hr, hcanceled⟩ := h.record
  obtain ⟨e, he, hcancel⟩ := h.live
  obtain ⟨s, x, hlive⟩ := hs.live rk
  rw [he] at hlive
  exact ⟨⟨r, hs.record_of_not_transient hr hcanceled.not_transient, hcanceled⟩, _, hlive, hcancel⟩

/-- **A resolution of another entity leaves what the live event shows**, as it writes elsewhere. -/
theorem Shown.resolves (h : w.Shown id rk) (hc : w.Canceled id rk cancel)
    (hs : Resolves p now w w') : w'.Shown id rk := by
  obtain ⟨r₀, hr₀, hcanceled⟩ := hc.record
  obtain ⟨hr, hexp, hw⟩ := hs
  rename_i j r
  have htransient : r.Transient := StatusRecord.transient_of_isExpired hexp
  have hj : j ≠ id := by
    rintro rfl
    rw [hr₀] at hr
    cases hr
    exact hcanceled.not_transient htransient
  have hkey : (r.resolve p now).routingKey ≠ some rk := by
    rw [r.resolve_routingKey]
    exact fun hrk => h.unclaimed j r hj hr hrk htransient
  constructor
  · have hlive : w'.live rk = w.live rk := by
      cases hw with
      | lost => rfl
      | set hrk₁ => exact if_neg fun heq => hkey (hrk₁.trans (congrArg some heq.symm))
    rw [hlive]
    exact h.status
  · intro k s hk hs hsrk
    rw [hw.record, record_setRecord] at hs
    split at hs
    · cases hs
      exact absurd hsrk hkey
    · exact h.unclaimed k s hk hs hsrk

theorem Canceled.sweeps (h : w.Canceled id rk cancel) (hs : Sweeps p now w w') :
    w'.Canceled id rk cancel ∧ (w.Shown id rk → w'.Shown id rk) := by
  induction hs with
  | refl => exact ⟨h, fun hshown => hshown⟩
  | tail _ hlast ih =>
    exact ⟨ih.1.resolves hlast, fun hshown => (ih.2 hshown).resolves ih.1 hlast⟩

/-! ## 5. All moves -/

/-- A remark on some live event that is not a cancellation touches neither. -/
theorem Canceled.remark (h : w.Canceled id rk cancel) {j : String} {e d : Event}
    (he : w.live j = some e) (hcancel : d.cancel = e.cancel) (hstatus : d.status = e.status) :
    (w.setLive j d).Canceled id rk cancel ∧ (w.Shown id rk → (w.setLive j d).Shown id rk) := by
  have hlive : ∀ {e₀ : Event}, w.live rk = some e₀ →
      ∃ e₁, (w.setLive j d).live rk = some e₁ ∧ e₁.cancel = e₀.cancel ∧ e₁.status = e₀.status := by
    intro e₀ he₀
    by_cases hj : rk = j
    · subst hj
      rw [he] at he₀
      cases he₀
      exact ⟨d, if_pos rfl, hcancel, hstatus⟩
    · exact ⟨e₀, (if_neg hj).trans he₀, rfl, rfl⟩
  obtain ⟨e₀, he₀, hcancel₀⟩ := h.live
  obtain ⟨e₁, he₁, hcancel₁, -⟩ := hlive he₀
  refine ⟨⟨h.record, e₁, he₁, hcancel₁.trans hcancel₀⟩, fun hshown => ⟨?_, hshown.unclaimed⟩⟩
  obtain ⟨e₂, he₂, hstatus₂⟩ := hshown.status
  obtain ⟨e₃, he₃, -, hstatus₃⟩ := hlive he₂
  exact ⟨e₃, he₃, hstatus₃.trans hstatus₂⟩

/-- **No move that spares a cancellation takes it away**, and what the live event shows stays, if it
shows the cancellation and nobody else will write there (`Shown`). -/
theorem Canceled.step (h : w.Canceled id rk cancel) (hp : p.restoreEvent = false)
    {c : EngineCommand} (hspares : c.Spares id rk now (w.record id)) (hs : Step p now c w w') :
    w'.Canceled id rk cancel ∧ (w.Shown id rk → w'.Shown id rk) := by
  cases hs with
  | idle => exact ⟨h, fun hshown => hshown⟩
  | @check _ ev d j r x hid hr hd =>
    rcases hspares with ⟨hown, rfl, hlate⟩ | ⟨hother, hkey⟩
    · rw [hid] at hown
      cases hown
      exact h.check hp hlate hr hd
    · have hj : id ≠ j := by
        rintro rfl
        exact hother hid
      have hrecord := checked_eq_or_routingKey p ⟨ev.state, ev.timestamp.getD now⟩ ev.routingKey
        (w.record j)
      rw [← hr] at hrecord
      exact h.check_other hj (Ne.symm hkey) hrecord _
  | sweep hs => exact h.sweeps hs
  | beat hs => exact h.sweeps hs
  | cancel => exact hspares.elim
  | uncancel => exact hspares.elim
  | acknowledge he => exact h.remark he rfl rfl
  | removeAck he => exact h.remark he rfl rfl

end World

/-! ## 6. Runs -/

namespace Backend

open World

variable {m : Medium} {p : Policy} {b : Backend} {w : World} {id rk : String} {cancel : Remark}

/-- Each command of the run leaves the cancellation when its turn comes. Whether a check comes too late
depends on the record that it finds, so the store is carried along. -/
def Spared (p : Policy) (id rk : String) : List (Instant × EngineCommand) → Backend → Prop
  | [], _ => True
  | (now, c) :: run, b =>
    (∀ o, b.recordAt id = .ok o → c.Spares id rk now o) ∧
      Spared p id rk run ((c.run (Engine.of .standard p) now).runOn b).2

theorem Reflects.canceled_after (hb : b.Reflects m w) (hw : w.Canceled id rk cancel)
    (hp : p.restoreEvent = false) (run : List (Instant × EngineCommand))
    (hkept : ∀ ev ∈ brought run, m.Keeps ev) (hrun : Spared p id rk run b) :
    ∃ w', (after p run b).Reflects m w' ∧ w'.Canceled id rk cancel ∧
      (w.Shown id rk → w'.Shown id rk) := by
  induction run generalizing b w with
  | nil => exact ⟨w, hb, hw, fun hshown => hshown⟩
  | cons c run ih =>
    obtain ⟨now, c⟩ := c
    obtain ⟨hspares, hrest⟩ := hrun
    have hc : ∀ ev, c.event? = some ev → m.Keeps ev := fun ev hev =>
      hkept ev (mem_brought List.mem_cons_self hev)
    have hkept' : ∀ ev ∈ brought run, m.Keeps ev := by
      intro ev hev
      obtain ⟨d, hd, hev'⟩ := List.mem_filterMap.mp hev
      exact hkept ev (mem_brought (List.mem_cons_of_mem _ hd) hev')
    show ∃ w', (after p run ((c.run (Engine.of .standard p) now).runOn b).2).Reflects m w' ∧ _
    rcases tries_run p now c hc w b hb with ⟨x, b', hc', hb'⟩ | ⟨a, b', w', hc', hb', hstep⟩
    · rw [hc'] at hrest ⊢
      exact ih hb' hw hkept' hrest
    · rw [hc'] at hrest ⊢
      obtain ⟨hw', hshown'⟩ := hw.step hp (hspares _ (hb.records id)) hstep
      obtain ⟨w'', hb'', hw'', hshown''⟩ := ih hb' hw' hkept' hrest
      exact ⟨w'', hb'', hw'', fun hshown => hshown'' (hshown' hshown)⟩

/-- **A cancellation stands.** When an entity in alert (`hr`) is canceled by the routing key of its
live event, every run that spares the cancellation leaves the entity canceled, and its live event
carries the very cancellation. The live event also shows the canceled status if at the time of the
cancellation no record of another entity that names it was transient.

A changing state does not lift cancellations (`hp`), and a healthy entity would leave its cancellation
at the next check, whatever the setting. The store is of either kind and shows any world (`hb`), as one
in memory always does (`reflects_memory`): what stands in it can be read. The events of the run are
ones that it keeps (`hkept`), which is nothing in memory and holds of all that come from texts
(`Medium.keeps_of_readText`). -/
theorem cancellation_stands (hp : p.restoreEvent = false) (hb : b.Reflects m w) {e : Event}
    (he : b.eventAt rk = .ok (some e)) (hid : e.entityId = .ok id) {r : StatusRecord} {b₁ : Backend}
    (hcancel : (Engine.cancel rk cancel).runOn b = (.ok r, b₁)) (hr : r.state ≠ .ok)
    (run : List (Instant × EngineCommand)) (hkept : ∀ ev ∈ brought run, m.Keeps ev)
    (hrun : Spared p id rk run b₁) :
    (∃ r', (after p run b₁).recordAt id = .ok (some r') ∧ r'.value = .canceled) ∧
      ∃ e', (after p run b₁).eventAt rk = .ok (some e') ∧ e'.cancel = some cancel ∧
        ((∀ j s, j ≠ id → b.recordAt j = .ok (some s) → s.routingKey = some rk → ¬ s.Transient) →
          e'.status = some .canceled) := by
  have hlive : w.live rk = some e := Except.ok.inj ((hb.events rk).symm.trans he)
  rcases tries_canceled m w rk cancel b hb with
    ⟨x, b', hfail, -⟩ | ⟨r', b', w', hok, hb', e₀, id₀, r₀, x, he₀, hid₀, -, hr', hw'⟩
  · rw [hcancel] at hfail
    cases hfail
  rw [hcancel] at hok
  cases hok
  rw [hlive] at he₀
  cases he₀
  rw [hid] at hid₀
  cases hid₀
  -- This is what the cancellation leaves.
  have hrecord : w'.record id = some r := by
    rw [hw']
    exact if_pos rfl
  have hmarked : w'.live rk =
      some { e with cancel := some cancel, status := some .canceled, extra := x } := by
    rw [hw']
    exact if_pos rfl
  have hvalue : r.value = .canceled := congrArg StatusRecord.value hr'
  have hcanceled : w'.Canceled id rk cancel := ⟨⟨r, hrecord, hvalue, hr⟩, _, hmarked, rfl⟩
  obtain ⟨w'', hb'', hw'', hshown⟩ := hb'.canceled_after hcanceled hp run hkept hrun
  obtain ⟨r'', hr'', hcanceled''⟩ := hw''.record
  obtain ⟨e', he', hcancel'⟩ := hw''.live
  refine ⟨⟨r'', (hb''.records id).trans (congrArg _ hr''), hcanceled''.1⟩, e',
    (hb''.events rk).trans (congrArg _ he'), hcancel', fun hothers => ?_⟩
  have hunclaimed : w'.Shown id rk := by
    refine ⟨⟨_, hmarked, rfl⟩, fun j s hj hs hsrk => hothers j s hj ?_ hsrk⟩
    rw [hw', record_setLive, record_setRecord, if_neg hj] at hs
    rw [hb.records j, hs]
  obtain ⟨e₁, he₁, hstatus⟩ := (hshown hunclaimed).status
  rw [he'] at he₁
  cases he₁
  exact hstatus

/-! ## 7. Two runs -/

/-- Changing states do not lift cancellations. -/
def steadfast : Policy := { Policy.standard with restoreEvent := false }

def outage : Remark := ⟨"operator", none, atSecond 1030⟩

/-- The entity of the resource. -/
def webEntity : String := "/component/nagios/n1/web01/http"

/-- An alert of the resource alone. -/
def oneAlert : List (Instant × EngineCommand) := [(atSecond 0, .processEvent webAlert)]

/-- An alert of the component that recovers soon, and then one of the resource. -/
def mixedAlerts : List (Instant × EngineCommand) :=
  [(atSecond 0, .processEvent hostAlert), (atSecond 1, .processEvent (componentCheck none 0 1010)),
    (atSecond 2, .processEvent webAlert)]

/-- The store after a cancellation that follows a run. -/
def canceledAfter (run : List (Instant × EngineCommand)) : Except EngineError StatusRecord × Backend :=
  (Engine.cancel componentKey outage).runOn (after steadfast run (blank .values))

def laterAlert : Event := componentCheck (some "http") 1 1100

def lateRecovery : Event := componentCheck (some "http") 0 1050

/-- One more alert of the resource, a recovery that comes too late, and a sweep. -/
def trouble : List (Instant × EngineCommand) :=
  [(atSecond 3, .processEvent laterAlert), (atSecond 4, .processEvent lateRecovery),
    (atSecond 5, .sweep (atSecond 9000))]

theorem reflects_oneAlert : ∃ w, (after steadfast oneAlert (blank .values)).Reflects .values w ∧
    ∀ j, j ≠ webEntity → w.record j = none := by
  refine exists_reflects_after (m := .values) steadfast oneAlert (fun _ _ => trivial) ?_
    (reflects_blank .values) fun _ _ => rfl
  intro c hc w w' hw hs
  fin_cases hc
  cases hs with
  | idle => exact hw
  | check hid =>
    cases hid
    exact fun j hj => (if_neg hj).trans (hw j hj)

theorem spared_trouble : Spared steadfast webEntity componentKey trouble (canceledAfter oneAlert).2 := by
  have hrecord : ((after steadfast [(atSecond 3, .processEvent laterAlert)]
      (canceledAfter oneAlert).2).recordAt webEntity).map (Option.map StatusRecord.timestamp) =
        .ok (some (atSecond 1100)) := by decide +kernel
  obtain ⟨r, hr, htime⟩ := exists_of_map_eq hrecord
  have hlate : lateRecovery.timestamp.getD (atSecond 4) < r.timestamp := by
    rw [htime]
    decide
  refine ⟨fun _ _ => Or.inl ⟨by decide, by decide, Or.inl (by decide)⟩, fun o ho => Or.inl ?_,
    fun _ _ => trivial, trivial⟩
  exact ⟨by decide, by decide, Or.inr ⟨r, Except.ok.inj (ho.symm.trans hr), hlate⟩⟩

theorem cancellation_stands_trouble :
    ∃ e' : Event,
      (after steadfast trouble (canceledAfter oneAlert).2).eventAt componentKey = .ok (some e') ∧
        e'.cancel = some outage ∧ e'.status = some .canceled := by
  obtain ⟨w, hb, hothers⟩ := reflects_oneAlert
  obtain ⟨hlive, hstate⟩ : (after steadfast oneAlert (blank .values)).glance componentKey
        Event.entityId = .ok (some (.ok webEntity)) ∧
      (canceledAfter oneAlert).1.map StatusRecord.state = .ok (CheckState.ok.nearest 2) := by
    decide +kernel
  obtain ⟨e, he, hid⟩ := exists_of_glance hlive
  cases hcancel : (canceledAfter oneAlert).1 with
  | error x =>
    rw [hcancel] at hstate
    cases hstate
  | ok r =>
    rw [hcancel] at hstate
    have hr : r.state ≠ .ok := by
      rw [Except.ok.inj hstate]
      decide
    obtain ⟨-, e', he', hcancel', hshown⟩ := cancellation_stands (p := steadfast) rfl hb he hid
      (Prod.ext hcancel rfl) hr trouble (fun _ _ => trivial) spared_trouble
    refine ⟨e', he', hcancel', hshown fun j s hj hs _ => ?_⟩
    rw [hb.records j, hothers j hj] at hs
    cases hs

/-- The resource is canceled while the component, which shares its live event, is stealthy. The sweep
that settles the component writes to the live event, and that no longer shows the cancellation which it
still carries. -/
theorem cancellation_overwritten :
    steadfast.restoreEvent = false ∧
      Spared steadfast webEntity componentKey [(atSecond 3, .sweep (atSecond 2000))]
        (canceledAfter mixedAlerts).2 ∧
      (after steadfast mixedAlerts (blank .values)).glance componentKey Event.entityId =
        .ok (some (.ok webEntity)) ∧
      (canceledAfter mixedAlerts).1.map StatusRecord.state = .ok (CheckState.ok.nearest 2) ∧
      (canceledAfter mixedAlerts).2.glance componentKey (fun e => (e.status, e.cancel)) =
        .ok (some (some .canceled, some outage)) ∧
      (after steadfast [(atSecond 3, .sweep (atSecond 2000))] (canceledAfter mixedAlerts).2).glance
        componentKey (fun e => (e.status, e.cancel)) = .ok (some (some .off, some outage)) := by
  refine ⟨rfl, ⟨fun _ _ => trivial, trivial⟩, ?_⟩
  decide +kernel

end Backend
end AlertStatus
