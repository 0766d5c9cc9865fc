import AlertStatus.Proofs.Engine.Steps
import AlertStatus.Proofs.Store.Region

/-!
# Events of different entities

Where events of different entities have different routing keys, each entity has a region of the store to
itself: its record, and all routing keys under which no other entity has events. An event keeps to the
region of its entity, so the events of one entity come to the same with and without the others
(`Engine.own_trace`). Two runs in which every entity has the same events in the same order therefore give
each event the same result and end in stores that read alike (`Engine.results_eq_of_own`), however the
entities are interleaved and whatever the clock says.
-/

set_option autoImplicit false

namespace AlertStatus

open AlertStatus.Action

/-! ## 1. Entities of events -/

namespace Event

variable {es es' : List Event} {id : String}

/-- The event reports on the entity `id`. -/
def isOf (id : String) (ev : Event) : Bool := decide (ev.entityId = .ok id)

/-- Events of different entities have different routing keys. One entity may have several. Nothing is
said of events without an entity, which are dropped. -/
def Apart (es : List Event) : Prop :=
  ∀ ev ∈ es, ∀ ev' ∈ es, ∀ id id', ev.entityId = .ok id → ev'.entityId = .ok id' → id ≠ id' →
    ev.routingKey ≠ ev'.routingKey

theorem Apart.of_keys
    (h : ∀ ev ∈ es, ∀ ev' ∈ es, ev.routingKey = ev'.routingKey → ev.entityId = ev'.entityId) :
    Apart es := by
  intro ev hev ev' hev' id id' hid hid' hne hrk
  have heq := h ev hev ev' hev' hrk
  rw [hid, hid'] at heq
  exact hne (Except.ok.inj heq)

/-- The entities that events report on. -/
def entities (es : List Event) : List String := es.filterMap fun ev => ev.entityId.toOption

theorem filter_isOf_eq_nil (h : id ∉ entities es) : es.filter (isOf id) = [] := by
  refine List.filter_eq_nil_iff.mpr fun ev hev heq => h ?_
  have hid : ev.entityId = .ok id := of_decide_eq_true heq
  exact List.mem_filterMap.mpr ⟨ev, hev, by rw [hid]; rfl⟩

/-- To compare what each entity has, it is enough to look at those that occur. -/
theorem own_of_entities
    (h : ∀ id ∈ entities es ++ entities es', es.filter (isOf id) = es'.filter (isOf id))
    (id : String) : es.filter (isOf id) = es'.filter (isOf id) := by
  by_cases hid : id ∈ entities es ++ entities es'
  · exact h id hid
  · rw [List.mem_append, not_or] at hid
    rw [filter_isOf_eq_nil hid.1, filter_isOf_eq_nil hid.2]

theorem carries_any (ev : Event) : ev.Carries fun _ => True := fun _ _ _ => trivial

end Event

/-! ## 2. Events and regions -/

namespace Region

variable {g : Region} {ev : Event}

/-- An event that has an entity has it, and its routing key, inside the region. -/
def Contains (g : Region) (ev : Event) : Prop :=
  ∀ id, ev.entityId = .ok id → g.ids id ∧ g.keys ev.routingKey

/-- An event that has an entity has it, and its routing key, outside the region. -/
def Avoids (g : Region) (ev : Event) : Prop :=
  ∀ id, ev.entityId = .ok id → ¬ g.ids id ∧ ¬ g.keys ev.routingKey

/-- **Inside a region** an event comes to the same over all stores that share it, whatever they hold
outside. An event without an entity is dropped, so it is inside every region. -/
theorem Contains.matches (h : g.Contains ev) (e : Engine) (now : Instant) :
    Matches g.Shared (e.processEvent now ev) (e.processEvent now ev) fun _ => True := by
  cases hid : ev.entityId with
  | error x =>
    simp only [Engine.processEvent, hid]
    exact Matches.done _
  | ok id =>
    refine g.linked_inside.processEvent e now (fun j hj => (h j hj).1) (h id hid).2 ?_
    exact ev.carries_any

/-- **Outside a region** an event leaves what the store shares with any other one. It has to be outside
with its entity and with its routing key (`h`), since its record stands under the one and its live
event and its log under the other. -/
theorem Avoids.ensures (h : g.Avoids ev) (e : Engine) (now : Instant) (d : Backend) :
    (e.processEvent now ev).Ensures (fun b => g.Shared b d) fun _ => True := by
  cases hid : ev.entityId with
  | error x =>
    simp only [Engine.processEvent, hid]
    exact Ensures.pure trivial
  | ok id =>
    refine Matches.ensures ((g.linked_outside d).processEvent e now (fun j hj => (h j hj).1) ?_ ?_)
    · exact (h id hid).2
    · exact ev.carries_any

/-- The region of an entity among some events: its record, and the routing keys under which no other
entity has events. Keys that no event has are in the region of every entity, so that together the
regions cover all of the store. -/
def ofEntity (es : List Event) (id : String) : Region where
  ids j := j = id
  keys rk := ∀ ev ∈ es, ∀ j, ev.entityId = .ok j → ev.routingKey = rk → j = id

theorem contains_ofEntity {es : List Event} (h : Event.Apart es) {id : String} (hev : ev ∈ es)
    (hid : ev.isOf id = true) : (ofEntity es id).Contains ev := by
  intro i hi
  have hi' : i = id := Except.ok.inj (hi.symm.trans (of_decide_eq_true hid))
  subst hi'
  refine ⟨rfl, fun ev' hev' j hj hrk => ?_⟩
  by_contra hne
  exact h ev' hev' ev hev j i hj hi hne hrk

theorem avoids_ofEntity {es : List Event} {id : String} (hev : ev ∈ es) (hid : ev.isOf id = false) :
    (ofEntity es id).Avoids ev := by
  intro j hj
  have hne : j ≠ id := by
    rintro rfl
    exact of_decide_eq_false hid hj
  exact ⟨hne, fun hkeys => hne (hkeys ev hev j hj rfl)⟩

/-- Each routing key is in the region of some entity. -/
theorem exists_ofEntity {es : List Event} (h : Event.Apart es) (rk : String) :
    ∃ id, (ofEntity es id).keys rk := by
  by_cases hused : ∃ ev ∈ es, ∃ id, ev.entityId = .ok id ∧ ev.routingKey = rk
  · obtain ⟨ev, hev, id, hid, rfl⟩ := hused
    exact ⟨id, (contains_ofEntity h hev (decide_eq_true hid) id hid).2⟩
  · exact ⟨"", fun ev hev j hj hrk => absurd ⟨ev, hev, j, hj, hrk⟩ hused⟩

end Region

namespace Engine

/-! ## 3. Runs of events -/

/-- An event that comes at a clock time. -/
def receive (e : Engine) (c : Instant × Event) : Action Backend EngineError (Option String) :=
  e.processEvent c.1 c.2

/-- The events of a run with their results. -/
def results (e : Engine) (run : List (Instant × Event)) (b : Backend) :
    List (Event × Except EngineError (Option String)) :=
  (trace e.receive run b).map fun x => (x.1.2, x.2)

/-- The store after a run of events. -/
def after (e : Engine) (run : List (Instant × Event)) (b : Backend) : Backend :=
  runAll e.receive run b

/-- An event that has a time does not look at the clock. -/
theorem processEvent_timed (e : Engine) (now now' : Instant) {ev : Event}
    (h : ev.timestamp.isSome = true) :
    (e.processEvent now ev : Action Backend EngineError (Option String)) = e.processEvent now' ev := by
  obtain ⟨t, ht⟩ := Option.isSome_iff_exists.mp h
  simp only [processEvent, ht, Option.getD_some]
  rfl

/-- So a run of such events may be taken at one clock time. -/
theorem results_timed (e : Engine) (now : Instant) (run : List (Instant × Event))
    (h : ∀ c ∈ run, c.2.timestamp.isSome = true) (b : Backend) :
    e.results run b = trace (e.processEvent now) (run.map Prod.snd) b ∧
      e.after run b = runAll (e.processEvent now) (run.map Prod.snd) b := by
  induction run generalizing b with
  | nil => exact ⟨rfl, rfl⟩
  | cons c run ih =>
    have hc : (e.receive c).runOn b = (e.processEvent now c.2).runOn b := by
      rw [receive, e.processEvent_timed c.1 now (h c List.mem_cons_self)]
    obtain ⟨hresults, hafter⟩ := ih (fun d hd => h d (List.mem_cons_of_mem _ hd))
      ((e.receive c).runOn b).2
    constructor
    · show (c.2, ((e.receive c).runOn b).1) :: e.results run ((e.receive c).runOn b).2 = _
      rw [hresults, hc]
      rfl
    · show e.after run ((e.receive c).runOn b).2 = _
      rw [hafter, hc]
      rfl

/-- An event without an entity gives nothing. -/
theorem results_dropped (e : Engine) (run : List (Instant × Event)) (b : Backend) :
    ∀ x ∈ e.results run b, (∀ id, x.1.entityId ≠ .ok id) → x.2 = .ok none := by
  induction run generalizing b with
  | nil => exact fun _ hx => nomatch hx
  | cons c run ih =>
    intro x hx hnone
    rcases List.mem_cons.mp hx with rfl | hx
    · show ((e.processEvent c.1 c.2).runOn b).1 = _
      cases hid : c.2.entityId with
      | error y => simp only [processEvent, hid, runOn_pure]
      | ok id => exact absurd hid (hnone id)
    · exact ih _ x hx hnone

/-! ## 4. Each entity by itself -/

section

variable (e : Engine) (now : Instant) (b : Backend) {es : List Event}

/-- **The events of one entity come to the same without the others**, and leave the same in its region.
The events that have an entity are among those by which the regions are drawn (`hes`). -/
theorem own_trace (h : Event.Apart es) (id : String) (es' : List Event)
    (hes : ∀ ev ∈ es', ∀ j, ev.entityId = .ok j → ev ∈ es) :
    (trace (e.processEvent now) es' b).filter (fun x => x.1.isOf id) =
        trace (e.processEvent now) (es'.filter (Event.isOf id)) b ∧
      (Region.ofEntity es id).Shared (runAll (e.processEvent now) es' b)
        (runAll (e.processEvent now) (es'.filter (Event.isOf id)) b) := by
  refine Matches.trace_filter (Event.isOf id) es' ?_ ?_ (Region.Shared.refl _ b)
  · intro ev hev hid
    have hmem := hes ev hev id (of_decide_eq_true hid)
    exact (Region.contains_ofEntity h hmem hid).matches e now
  · intro ev hev hid d
    refine Region.Avoids.ensures (fun j hj => ?_) e now d
    exact Region.avoids_ofEntity (hes ev hev j hj) hid j hj

/-- Two runs in which every entity has the same events. -/
theorem own_eq {es' : List Event} (h : Event.Apart es)
    (hown : ∀ id, es.filter (Event.isOf id) = es'.filter (Event.isOf id)) (id : String) :
    (trace (e.processEvent now) es b).filter (fun x => x.1.isOf id) =
        (trace (e.processEvent now) es' b).filter (fun x => x.1.isOf id) ∧
      (Region.ofEntity es id).Shared (runAll (e.processEvent now) es b)
        (runAll (e.processEvent now) es' b) := by
  have hes : ∀ ev ∈ es', ∀ j, ev.entityId = .ok j → ev ∈ es := by
    intro ev hev j hj
    have hmem : ev ∈ es'.filter (Event.isOf j) := List.mem_filter.mpr ⟨hev, decide_eq_true hj⟩
    rw [← hown j] at hmem
    exact List.mem_of_mem_filter hmem
  obtain ⟨htrace, hshared⟩ := e.own_trace now b h id es fun ev hev _ _ => hev
  obtain ⟨htrace', hshared'⟩ := e.own_trace now b h id es' hes
  rw [hown id] at htrace hshared
  exact ⟨htrace.trans htrace'.symm, hshared.trans hshared'.symm⟩

end

/-- **Entities are independent.** Over any store, under any table and policy, take two runs of events
in which each entity has the same events in the same order (`hown`) and different entities have
different routing keys (`hapart`). Then every event has the same result in both runs, and the stores
have the same records, the same live events and the same log.

Each event has a time (`htime`). One without it would take the time of the clock, which need not be the
same in both runs. Two entities with one key would be merged into one live event and be recorded under
one key, where their order counts. The log is read by keys, since as a whole it is in the order of
arrival. -/
theorem results_eq_of_own (e : Engine) (b : Backend) (run run' : List (Instant × Event))
    (htime : ∀ c ∈ run ++ run', c.2.timestamp.isSome = true)
    (hapart : Event.Apart (run.map Prod.snd))
    (hown : ∀ id, (run.map Prod.snd).filter (Event.isOf id) =
      (run'.map Prod.snd).filter (Event.isOf id)) :
    (∀ id, (e.results run b).filter (fun x => x.1.isOf id) =
        (e.results run' b).filter (fun x => x.1.isOf id)) ∧
      (∀ x ∈ e.results run b ++ e.results run' b, (∀ id, x.1.entityId ≠ .ok id) → x.2 = .ok none) ∧
      (∀ id, (e.after run b).recordAt id = (e.after run' b).recordAt id) ∧
      ∀ rk, (e.after run b).eventAt rk = (e.after run' b).eventAt rk ∧
        (e.after run b).logAt rk = (e.after run' b).logAt rk := by
  -- The clock is not looked at, so any time will do.
  let now := Instant.latest.nearest 0
  obtain ⟨hresults, hafter⟩ := e.results_timed now run
    (fun c hc => htime c (List.mem_append_left _ hc)) b
  obtain ⟨hresults', hafter'⟩ := e.results_timed now run'
    (fun c hc => htime c (List.mem_append_right _ hc)) b
  have hsame := e.own_eq now b hapart hown
  rw [← hresults, ← hresults', ← hafter, ← hafter'] at hsame
  refine ⟨fun id => (hsame id).1, ?_, fun id => (hsame id).2.records id rfl, fun rk => ?_⟩
  · intro x hx
    rcases List.mem_append.mp hx with hx | hx
    · exact e.results_dropped run b x hx
    · exact e.results_dropped run' b x hx
  · obtain ⟨id, hid⟩ := Region.exists_ofEntity hapart rk
    have hshared := (hsame id).2
    exact ⟨hshared.events rk hid, Backend.logAt_of_rowsAt hshared.medium (hshared.rows rk hid)⟩

/-- Checks of two services of one host, and one that says not which. -/
def twoServices : List (Instant × Event) :=
  [(atSecond 0, .webCheck 2 1000),
    (atSecond 1, { Event.webCheck 0 1000 with resource := some "ssh" }),
    (atSecond 2, .webCheck 0 1100),
    (atSecond 3, { Event.webCheck 2 1100 with resource := none }),
    (atSecond 4, { Event.webCheck 2 1100 with resource := some "ssh" })]

/-- The same, one service after the other. -/
def oneByOne : List (Instant × Event) :=
  [(atSecond 0, { Event.webCheck 2 1100 with resource := none }),
    (atSecond 1, { Event.webCheck 0 1000 with resource := some "ssh" }),
    (atSecond 2, { Event.webCheck 2 1100 with resource := some "ssh" }),
    (atSecond 3, .webCheck 2 1000),
    (atSecond 4, .webCheck 0 1100)]

theorem results_eq_of_own_twoServices :
    (∀ c ∈ twoServices ++ oneByOne, c.2.timestamp.isSome = true) ∧
      Event.Apart (twoServices.map Prod.snd) ∧
      (∀ id, (twoServices.map Prod.snd).filter (Event.isOf id) =
        (oneByOne.map Prod.snd).filter (Event.isOf id)) ∧
      ∀ rk, ((Engine.of .standard .standard).after twoServices (.tables .empty)).logAt rk =
        ((Engine.of .standard .standard).after oneByOne (.tables .empty)).logAt rk := by
  have htime : ∀ c ∈ twoServices ++ oneByOne, c.2.timestamp.isSome = true := by decide
  have hapart : Event.Apart (twoServices.map Prod.snd) := .of_keys (by decide +kernel)
  have hown : ∀ id, (twoServices.map Prod.snd).filter (Event.isOf id) =
      (oneByOne.map Prod.snd).filter (Event.isOf id) := Event.own_of_entities (by decide +kernel)
  obtain ⟨-, -, -, hstores⟩ := results_eq_of_own (Engine.of .standard .standard) (.tables .empty)
    twoServices oneByOne htime hapart hown
  exact ⟨htime, hapart, hown, fun rk => (hstores rk).2⟩

end Engine
end AlertStatus
