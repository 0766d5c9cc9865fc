import AlertStatus.Proofs.Engine.Incident
import AlertStatus.Proofs.Event.Address

/-!
# Who shares a live event

Operators name an entity by the routing key of its live event. That is meant to be unambiguous: the
events of one key should report on one entity. It is so for events of type resource, and for others
when they agree in the resource that they name (`entity_of_key`). Otherwise two entities share a live
event (`key_of_two_entities`), and a command by the key concerns the one that was heard of last.
-/

set_option autoImplicit false

namespace AlertStatus

namespace World

variable {p : Policy} {now : Instant} {w w' : World} {rk : String}
  {home : String × String × String × String × String}

/-! ## 1. The place of a live event -/

/-- The live event of the key, if there is one, has the place `home`. -/
def At (w : World) (rk : String) (home : String × String × String × String × String) : Prop :=
  ∀ e, w.live rk = some e → e.place = home

/-- An event that is archived under a key of its own place is live there. -/
theorem At.archived {excluded : List String} {ev d : Event} {s : Status} (hev : ev.place = home)
    (hw : w.At rk home)
    (hd : archived? excluded now (reported now ev s) (w.live rk) = some d) : d.place = home := by
  cases hlive : w.live rk with
  | none =>
    rw [hlive] at hd
    cases hd
    exact hev
  | some prior =>
    rw [hlive] at hd
    have hprior : prior.place = home := hw prior hlive
    rw [Event.place_merged hd, hprior]
    rw [Event.stamped_place, hprior]
    exact hev

/-- A change of one live event leaves it in its place if the change is none of the place. -/
theorem At.setLive {j : String} {d : Event} (h : w.At rk home) (hd : j = rk → d.place = home) :
    (w.setLive j d).At rk home := by
  intro e he
  rcases of_live_setLive he with ⟨hj, rfl⟩ | he
  · exact hd hj.symm
  · exact h e he

/-- **No move but a check takes a live event to another place**, as what an operator or a sweep sets is
not part of it. A check is left to `At.archived`, which asks for the place of its event. -/
theorem At.step {c : EngineCommand} (h : w.At rk home) (hs : Step p now c w w')
    (hc : ∀ ev, c ≠ .processEvent ev) : w'.At rk home := by
  have hsweeps : ∀ {t : Instant}, Sweeps p t w w' → w'.At rk home := by
    intro t hs e he
    obtain ⟨s, x, hlive⟩ := hs.live rk
    rw [he] at hlive
    obtain ⟨e₀, he₀, rfl⟩ := Option.map_eq_some_iff.mp hlive.symm
    exact h e₀ he₀
  cases hs with
  | idle => exact h
  | @check _ ev _ _ _ _ _ _ _ => exact absurd rfl (hc ev)
  | sweep hs => exact hsweeps hs
  | beat hs => exact hsweeps hs
  | @cancel _ j _ _ e _ _ he =>
    exact At.setLive (w := w.setRecord _ _) h fun hj => h e (hj ▸ he)
  | @uncancel _ j _ _ e _ _ he =>
    exact At.setLive (w := w.setRecord _ _) h fun hj => h e (hj ▸ he)
  | @acknowledge _ j _ e _ he => exact h.setLive fun hj => h e (hj ▸ he)
  | @removeAck _ j e _ he => exact h.setLive fun hj => h e (hj ▸ he)

end World

/-! ## 2. Engines with any status table -/

namespace Backend

open World

variable {m : Medium} {w : World} {rk : String} {home : String × String × String × String × String}

/-- A check writes no live event, whatever rules are registered. -/
theorem tries_trackerProcess (m : Medium) (w : World) (t : Tracker) (id rk : String) (c : Check) :
    Tries m (t.process id rk c) w fun _ w' => w'.live = w.live := by
  have hkeep (r : StatusRecord) :
      Succeeds m (Tracker.process.keep id rk r) w fun _ w' => w'.live = w.live := by
    refine (succeeds_keep m w id rk r).weaken ?_
    rintro - w' ⟨-, rfl⟩
    rfl
  refine (succeeds_trackerGet m w id).tries.bind_look ?_
  rintro o -
  cases o with
  | none => exact (hkeep _).tries
  | some r =>
    show Tries m (if c.timestamp < r.timestamp then _ else _) w _
    split
    · refine (succeeds_pure ?_).tries
      rfl
    · exact (tries_ofExcept m w (t.advance r c)).bind_look fun r' _ => (hkeep r').tries

theorem tries_processEvent_at {ev : Event} (hkeeps : m.Keeps ev) (e : Engine) (now : Instant)
    (hev : ev.routingKey = rk → ev.place = home) (hw : w.At rk home) :
    Tries m (e.processEvent now ev) w fun _ w' => w'.At rk home := by
  unfold Engine.processEvent
  cases hid : ev.entityId with
  | error x => exact (succeeds_pure hw).tries
  | ok id =>
    refine ((tries_trackerProcess m w e.tracker id ev.routingKey _).rename _).bind ?_
    intro r w₁ hlive
    have hw₁ : w₁.At rk home := by
      unfold At
      rw [hlive]
      exact hw
    have hkeeps' : m.Keeps (reported now ev r.value) := hkeeps.of_extra rfl
    refine ((succeeds_archive hkeeps' w₁ e.archive.excluded now).rename _).bind ?_
    rintro - w₂ ⟨d, x, hd, rfl⟩
    refine succeeds_pure (hw₁.setLive ?_)
    rintro rfl
    have hplace : d.place = home := hw₁.archived (hev rfl) hd
    exact hplace

/-- Only checks go by the status table. -/
theorem run_eq_standard (e : Engine) (now : Instant) {c : EngineCommand}
    (hc : ∀ ev, c ≠ .processEvent ev) :
    (c.run e now : Action Backend EngineError Reply) = c.run (Engine.of .standard e.policy) now := by
  cases c with
  | processEvent ev => exact absurd rfl (hc ev)
  | _ => rfl

/-- **No command takes a live event to another place** than the events of its key have (`hev`). The
events are ones that the store keeps (`hkeeps`), so that the merged one is read back, and its place is
one of known fields, which come back as they were. -/
theorem tries_run_at (e : Engine) (now : Instant) (c : EngineCommand)
    (hkeeps : ∀ ev, c.event? = some ev → m.Keeps ev)
    (hev : ∀ ev, c.event? = some ev → ev.routingKey = rk → ev.place = home) (hw : w.At rk home) :
    Tries m (c.run e now) w fun _ w' => w'.At rk home := by
  by_cases hc : ∃ ev, c = .processEvent ev
  · obtain ⟨ev, rfl⟩ := hc
    exact (tries_processEvent_at (hkeeps ev rfl) e now (hev ev rfl) hw).bind
      fun _ _ h => succeeds_pure h
  · have hc' : ∀ ev, c ≠ .processEvent ev := fun ev h => hc ⟨ev, h⟩
    rw [run_eq_standard e now hc']
    exact (tries_run e.policy now c hkeeps w).weaken fun _ w' hs => hw.step hs hc'

/-- The store after a run of commands of an engine. -/
def ranBy (e : Engine) (run : List (Instant × EngineCommand)) (b : Backend) : Backend :=
  Action.runAll (fun c => c.2.run e c.1) run b

/-! ## 3. The entity of a key -/

/-- The entity that a command by a routing key concerns. -/
theorem entityOf_eq {b : Backend} {id : String} {d : Event} (hd : b.eventAt rk = .ok (some d))
    (hid : d.entityId = .ok id) :
    ((Engine.entityOf rk : Action Backend EngineError String).runOn b).1 = .ok id := by
  unfold Engine.entityOf Engine.onStore
  rw [Action.runOn_bind, Action.runOn_rename, runOn_getEvent, hd]
  dsimp only [Except.mapError]
  rw [hid]
  rfl

/-- **One key, one entity.** An event without an explicit key, whose fields have no separator in them,
is of the same entity as another one of its key if and only if they are of type resource or name the
same resource. If that holds of all events of the key, then the commands of operators by the key
concern the entity of each of them, after any run of commands of any engine over either kind of store.

An explicit key may be given to events of any entity, and a separator in a field can make different
fields give one key or one id, so both are left out (`he`, see `Event.Sourced`). That the event has an
entity at all is asked for by `hi`. The events of the run are ones that the store keeps, as every store
does with those that come from texts (`Medium.keeps_of_readText`). -/
theorem entity_of_key {e : Event} {i : String} (he : e.Sourced) (hi : e.entityId = .ok i) :
    (∀ (d : Event) (j : String), d.Sourced → d.entityId = .ok j → e.routingKey = d.routingKey →
      (i = j ↔ e.sourceType = "resource" ∨ e.namedResource = d.namedResource)) ∧
    ∀ (m : Medium) (eng : Engine) (run : List (Instant × EngineCommand)),
      (∀ ev ∈ brought run, m.Keeps ev) →
      (∀ ev ∈ brought run, ev.routingKey = e.routingKey →
        ev.Sourced ∧ (ev.sourceType = "resource" ∨ ev.namedResource = e.namedResource)) →
      ∀ d, (ranBy eng run (blank m)).eventAt e.routingKey = .ok (some d) →
        ((Engine.entityOf e.routingKey : Action Backend EngineError String).runOn
          (ranBy eng run (blank m))).1 = .ok i := by
  refine ⟨fun d j hd hj hkey => ?_, fun m eng run hkept hrun d hd => ?_⟩
  · rw [he.entityId_eq_iff hd hi hj, he.place_eq_iff hd hkey]
  · have hplace : ∀ ev ∈ brought run, ev.routingKey = e.routingKey → ev.place = e.place := by
      intro ev hev hkey
      obtain ⟨hsourced, hsame⟩ := hrun ev hev hkey
      exact (hsourced.place_eq_iff he hkey).mpr hsame
    obtain ⟨w, hw, hlive⟩ := exists_reflects_runAll run (fun c hc w hw =>
      tries_run_at eng c.1 c.2 (fun ev hev => hkept ev (mem_brought hc hev))
        (fun ev hev => hplace ev (mem_brought hc hev)) hw) (reflects_blank m) (fun x hx => by cases hx)
    have hd' : w.live e.routingKey = some d := Except.ok.inj ((hw.events _).symm.trans hd)
    refine entityOf_eq hd ?_
    rw [Event.entityId_of_place (hlive d hd')]
    exact hi

/-- A check of a component, which may name a resource of it. -/
def componentCheck (resource : Option String) (state seconds : Int) : Event :=
  { Event.blank with
    connector := "nagios", connectorName := "n1", eventType := "check", sourceType := "component",
    component := "web01", resource, state := CheckState.ok.nearest state,
    timestamp := some (atSecond seconds) }

/-- The routing key of the component, whatever resource a check names. -/
def componentKey : String := "nagios.n1.check.component.web01"

/-- An alert of the component itself. -/
def hostAlert : Event := componentCheck none 2 1000

/-- An alert of a resource of the component. -/
def webAlert : Event := componentCheck (some "http") 2 1020

theorem sourced_hostAlert : hostAlert.Sourced := ⟨rfl, by decide⟩

theorem sourced_webAlert : webAlert.Sourced := ⟨rfl, by decide⟩

/-- An alert of the resource alone, and an acknowledgement. -/
def acknowledgedWeb : List (Instant × EngineCommand) :=
  [(atSecond 0, .processEvent webAlert),
    (atSecond 1, .acknowledge componentKey ⟨"operator", none, atSecond 1030⟩)]

/-- The engine with the standard table and thresholds. -/
def standardEngine : Engine := .of .standard .standard

theorem entity_of_key_webAlert :
    webAlert.Sourced ∧ webAlert.entityId = .ok "/component/nagios/n1/web01/http" ∧
      ∃ d, (ranBy standardEngine acknowledgedWeb (blank .values)).eventAt componentKey = .ok (some d) ∧
        ((Engine.entityOf componentKey : Action Backend EngineError String).runOn
          (ranBy standardEngine acknowledgedWeb (blank .values))).1 =
            .ok "/component/nagios/n1/web01/http" := by
  have hbrought : ∀ ev ∈ brought acknowledgedWeb, ev = webAlert := by
    intro ev hev
    fin_cases hev
    rfl
  have hlive : (ranBy standardEngine acknowledgedWeb (blank .values)).glance componentKey
      Event.isAlert = .ok (some true) := by decide +kernel
  obtain ⟨d, hd, -⟩ := exists_of_glance hlive
  refine ⟨sourced_webAlert, rfl, d, hd, ?_⟩
  refine (entity_of_key sourced_webAlert rfl).2 .values standardEngine acknowledgedWeb
    (fun _ _ => trivial) (fun ev hev _ => ?_) d hd
  rw [hbrought ev hev]
  exact ⟨sourced_webAlert, Or.inr rfl⟩

/-- Checks of the component itself and of a resource of it have one routing key, but two entities. Once
both were heard of, a command by the key concerns the resource alone. -/
theorem key_of_two_entities :
    hostAlert.Sourced ∧ webAlert.Sourced ∧ hostAlert.routingKey = webAlert.routingKey ∧
      hostAlert.entityId = .ok "/component/nagios/n1/web01" ∧
      webAlert.entityId = .ok "/component/nagios/n1/web01/http" ∧
      ((Engine.entityOf componentKey : Action Backend EngineError String).runOn
        (ranBy standardEngine
          [(atSecond 0, .processEvent hostAlert), (atSecond 1, .processEvent webAlert)]
          (blank .values))).1 = .ok "/component/nagios/n1/web01/http" := by
  refine ⟨sourced_hostAlert, sourced_webAlert, by decide, rfl, rfl, ?_⟩
  decide +kernel

end Backend
end AlertStatus
