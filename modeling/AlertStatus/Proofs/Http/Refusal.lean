import AlertStatus.Http.Router
import AlertStatus.Proofs.Data.Refusal
import AlertStatus.Proofs.Event.Merging
import AlertStatus.Store.Memory

/-!
# A refused request changes nothing

A request is refused by the interface, by a look-up, or by an operation of the engine. An event and an
operator's command may write two documents, the record of the entity and the live event, so a refusal
between the two would leave one of them behind. Over a store in memory there is none: whatever can be
refused is so before the first write, and the second write is an update of a live event that was found
by a change that fits.
-/

set_option autoImplicit false

namespace AlertStatus

open AlertStatus.Action

variable (s : MemoryStore)

/-! ## 1. The store -/

theorem gives_getEvent (rk : String) :
    (Store.getEvent rk : Action MemoryStore StoreError _).Gives s fun o s' =>
      s' = s ∧ o = s.events.get? rk :=
  gives_look _ s

theorem gives_putEvent (rk : String) (e : Event) :
    (Store.putEvent rk e : Action MemoryStore StoreError _).Gives s fun _ _ => True :=
  (gives_change _ s).weaken fun _ _ _ => trivial

/-- **An update of a live event that is there does not fail** if the change fits. Both are known when
the second write of a command comes: the live event was looked up, and the change is one of the
engine's own. -/
theorem gives_updateEvent {s : MemoryStore} {rk : String} {change : Fields} {e e' : Event}
    (he : s.events.get? rk = some e) (hu : e.update? change = some e') :
    (Store.updateEvent rk change : Action MemoryStore StoreError _).Gives s fun _ _ => True := by
  refine ⟨(), { s with events := s.events.insert rk e' }, ?_, trivial⟩
  show (Action.become fun s : MemoryStore => s.updateEvent rk change).runOn s = _
  rw [Action.runOn_become, MemoryStore.updateEvent, he]
  dsimp only
  rw [hu]

/-! ## 2. The tracker -/

namespace Tracker

theorem gives_getStatus (id : String) :
    (getStatus id : Action MemoryStore StatusError _).Gives s fun o s' =>
      s' = s ∧ o = s.statuses.get? id :=
  (gives_look _ s).rename _

/-- Records are written without a look at the live events. -/
theorem gives_putStatus (id : String) (r : StatusRecord) :
    (putStatus id r : Action MemoryStore StatusError _).Gives s fun _ s' => s'.events = s.events :=
  ((gives_change _ s).weaken fun _ _ h => congrArg MemoryStore.events h).rename _

theorem gives_keep (id rk : String) (r : StatusRecord) :
    (process.keep id rk r : Action MemoryStore StatusError _).Gives s fun _ _ => True :=
  (gives_putStatus s id _).bind fun _ _ _ => gives_pure trivial

/-- **A check** is refused when no rule is registered for the status, and writes after that. In memory
nothing else can refuse it. -/
theorem allOrNothing_process (t : Tracker) (id rk : String) (c : Check) :
    (t.process id rk c : Action MemoryStore StatusError _).AllOrNothing s fun _ _ => True := by
  refine (gives_getStatus s id).allOrNothing.bind_look ?_
  rintro o -
  cases o with
  | none => exact (gives_keep s id rk _).allOrNothing
  | some r =>
    show AllOrNothing (if c.timestamp < r.timestamp then _ else _) s _
    split
    · exact (gives_pure trivial).allOrNothing
    · exact (allOrNothing_ofExcept (t.advance r c) s).bind_look fun r' _ =>
        (gives_keep s id rk r').allOrNothing

theorem allOrNothing_known (id : String) :
    (known id : Action MemoryStore StatusError _).AllOrNothing s fun r s' =>
      s' = s ∧ s.statuses.get? id = some r := by
  refine (gives_getStatus s id).allOrNothing.bind_look ?_
  rintro o rfl
  cases hr : s.statuses.get? id with
  | none => exact allOrNothing_fail _ s _
  | some r => exact (gives_pure ⟨rfl, rfl⟩).allOrNothing

theorem allOrNothing_cancel (id : String) (t : Instant) :
    (Tracker.cancel id t : Action MemoryStore StatusError _).AllOrNothing s fun _ s' =>
      s'.events = s.events := by
  refine (allOrNothing_known s id).bind_look fun r _ => Gives.allOrNothing ?_
  exact (gives_putStatus s id _).bind fun _ _ h => gives_pure h

theorem allOrNothing_uncancel (id : String) (t : Instant) :
    (Tracker.uncancel id t : Action MemoryStore StatusError _).AllOrNothing s fun _ s' =>
      s'.events = s.events := by
  refine (allOrNothing_known s id).bind_look fun r _ => Gives.allOrNothing ?_
  show Gives (if r.value = .canceled then _ else _) s _
  split
  · exact (gives_putStatus s id _).bind fun _ _ h => gives_pure h
  · exact gives_pure rfl

end Tracker

/-! ## 3. The archive -/

/-- **An event is always archived**: what a merge changes fits, and a log entry that is refused is no
failure. -/
theorem Archive.gives_process (a : Archive) (now : Instant) (e : Event) :
    (a.process now e : Action MemoryStore StoreError _).Gives s fun _ _ => True := by
  have hlog (cond : Bool) (entry : LogEntry) (s : MemoryStore) :
      (if cond then tryAppend entry else pure false : Action MemoryStore StoreError Bool).Gives s
        fun _ _ => True := by
    cases cond with
    | true => exact (gives_attempt _ s).bind fun _ _ _ => gives_pure trivial
    | false => exact gives_pure trivial
  refine (gives_getEvent s e.routingKey).bind ?_
  rintro o s' ⟨rfl, rfl⟩
  cases hlive : s'.events.get? e.routingKey with
  | none => exact (gives_putEvent s' e.routingKey _).bind fun _ _ _ => gives_pure trivial
  | some prior =>
    let stamped := (e.identified now).stamped prior (e.timestamp.getD now)
    obtain ⟨d, hd, -, -⟩ := Event.exists_merged a.excluded stamped prior
    show Gives (if (stamped.changeOf a.excluded prior).isEmpty = true then _ else _) s' _
    split
    · exact hlog (logged stamped) _ s'
    · exact (gives_updateEvent hlive hd).bind fun _ s'' _ => hlog (logged stamped) _ s''

/-! ## 4. The engine -/

namespace Engine

variable (rk : String)

theorem allOrNothing_entityOf :
    (entityOf rk : Action MemoryStore EngineError _).AllOrNothing s fun _ s' =>
      s' = s ∧ ∃ e, s.events.get? rk = some e := by
  refine ((gives_getEvent s rk).rename _).allOrNothing.bind_look ?_
  rintro o rfl
  cases he : s.events.get? rk with
  | none => exact allOrNothing_fail _ s _
  | some e =>
    dsimp only
    cases e.entityId with
    | error x => exact allOrNothing_fail _ s _
    | ok id => exact (gives_pure ⟨rfl, e, rfl⟩).allOrNothing

theorem allOrNothing_processEvent (e : Engine) (now : Instant) (ev : Event) :
    (e.processEvent now ev : Action MemoryStore EngineError _).AllOrNothing s fun _ _ => True := by
  unfold processEvent
  cases ev.entityId with
  | error x => exact (gives_pure trivial).allOrNothing
  | ok id =>
    refine ((e.tracker.allOrNothing_process s id ev.routingKey _).rename _).bind ?_
    intro r s' _
    exact ((e.archive.gives_process s' now _).rename _).bind fun _ _ _ => gives_pure trivial

/-- **A cancellation** is refused for a live event without an entity and for an entity without a record,
and the second write does not fail, since the live event is still there. -/
theorem allOrNothing_cancel (c : Remark) :
    (cancel rk c : Action MemoryStore EngineError _).AllOrNothing s fun _ _ => True := by
  refine (allOrNothing_entityOf s rk).bind_look ?_
  rintro id ⟨e, he⟩
  refine ((Tracker.allOrNothing_cancel s id c.timestamp).rename _).bind ?_
  intro r s' hs'
  have he' : s'.events.get? rk = some e := hs' ▸ he
  exact ((gives_updateEvent he' (Event.update?_cancel e c .canceled)).rename _).bind
    fun _ _ _ => gives_pure trivial

theorem allOrNothing_uncancel (t : Instant) :
    (uncancel rk t : Action MemoryStore EngineError _).AllOrNothing s fun _ _ => True := by
  refine (allOrNothing_entityOf s rk).bind_look ?_
  rintro id ⟨e, he⟩
  refine ((Tracker.allOrNothing_uncancel s id t).rename _).bind ?_
  intro r s' hs'
  have he' : s'.events.get? rk = some e := hs' ▸ he
  exact ((gives_updateEvent he' (Event.update?_uncancel e r.value)).rename _).bind
    fun _ _ _ => gives_pure trivial

theorem allOrNothing_acknowledge (ack : Remark) :
    (acknowledge rk ack : Action MemoryStore EngineError _).AllOrNothing s fun _ _ => True := by
  refine (allOrNothing_entityOf s rk).bind_look ?_
  rintro id ⟨e, he⟩
  exact ((gives_updateEvent he (Event.update?_ack e ack)).rename _).allOrNothing

theorem allOrNothing_removeAck :
    (removeAck rk : Action MemoryStore EngineError _).AllOrNothing s fun _ _ => True := by
  refine (allOrNothing_entityOf s rk).bind_look ?_
  rintro id ⟨e, he⟩
  exact ((gives_updateEvent he (Event.update?_removeAck e)).rename _).allOrNothing

end Engine

/-! ## 5. The interface -/

namespace Router

/-- A handler that refuses a request leaves the store as it was. -/
def RefusesCleanly (f : MemoryStore → Response × MemoryStore) : Prop :=
  ∀ s, (f s).1.served = false → (f s).2 = s

/-- An operation of the engine is all or nothing, and it is served when it is done. -/
theorem refusesCleanly_respond {α : Type} {x : Action MemoryStore EngineError α}
    {answer : α → Response} (h : ∀ s, x.AllOrNothing s fun _ _ => True)
    (hserved : ∀ a, (answer a).served = true) : RefusesCleanly (respond x answer) := by
  intro s hrefused
  rcases h s with ⟨e, hrun⟩ | ⟨a, s', hrun, -⟩
  · rw [respond, hrun]
  · rw [respond, hrun] at hrefused
    dsimp only at hrefused
    rw [hserved a] at hrefused
    cases hrefused

/-- A look-up leaves the store in any case. -/
theorem refusesCleanly_respond_look {α : Type} {x : Action MemoryStore EngineError α}
    {answer : α → Response} (h : ∀ s, (x.runOn s).2 = s) : RefusesCleanly (respond x answer) := by
  intro s _
  have hs := h s
  unfold respond
  generalize x.runOn s = out at hs
  obtain ⟨o, s'⟩ := out
  cases o with
  | error e => exact hs
  | ok a => exact hs

theorem refusesCleanly_withBody {α : Type} [Readable α] {r : Request}
    {f : α → MemoryStore → Response × MemoryStore} (h : ∀ a, RefusesCleanly (f a)) :
    RefusesCleanly (withBody α r f) := by
  intro s hrefused
  unfold withBody at hrefused ⊢
  cases hbody : body α r with
  | error refusal => rfl
  | ok a =>
    rw [hbody] at hrefused
    exact h a s hrefused

theorem refusesCleanly_withRemark {r : Request} {now : Instant}
    {f : String → Remark → MemoryStore → Response × MemoryStore}
    (h : ∀ rk remark, RefusesCleanly (f rk remark)) : RefusesCleanly (withRemark r now f) := by
  refine refusesCleanly_withBody fun a s hrefused => ?_
  split
  · rfl
  · rename_i hauthor
    rw [if_neg hauthor] at hrefused
    exact h _ _ s hrefused

theorem refusesCleanly_withParameter {r : Request} {name : String}
    {f : String → MemoryStore → Response × MemoryStore} (h : ∀ v, RefusesCleanly (f v)) :
    RefusesCleanly (withParameter r name f) := by
  intro s hrefused
  unfold withParameter at hrefused ⊢
  cases hparam : r.target.query.required name with
  | none => rfl
  | some v =>
    rw [hparam] at hrefused
    exact h v s hrefused

/-- **Every endpoint refuses cleanly.** -/
theorem refusesCleanly_serve (e : Engine) (now : Instant) (r : Request) (p : Endpoint) :
    RefusesCleanly (serve e now r p) := by
  cases p with
  | postEvent =>
    exact refusesCleanly_withBody fun ev =>
      refusesCleanly_respond (fun s => Engine.allOrNothing_processEvent s e now ev) fun _ => rfl
  | getEvent =>
    exact refusesCleanly_withParameter fun rk => refusesCleanly_respond_look fun _ => rfl
  | getLog =>
    exact refusesCleanly_withParameter fun rk => refusesCleanly_respond_look fun _ => rfl
  | getStatus =>
    exact refusesCleanly_withParameter fun id => refusesCleanly_respond_look fun _ => rfl
  | sweep =>
    intro s hrefused
    unfold serve at hrefused ⊢
    dsimp only at hrefused ⊢
    cases htime : r.target.query.optionalInstant "now" with
    | none => rfl
    | some time =>
      -- A sweep is always served.
      rw [htime] at hrefused
      cases hrefused
  | acknowledge =>
    exact refusesCleanly_withRemark fun rk ack =>
      refusesCleanly_respond (fun s => Engine.allOrNothing_acknowledge s rk ack) fun _ => rfl
  | removeAck =>
    exact refusesCleanly_withBody fun a =>
      refusesCleanly_respond (fun s => Engine.allOrNothing_removeAck s a.routingKey) fun _ => rfl
  | cancel =>
    exact refusesCleanly_withRemark fun rk remark =>
      refusesCleanly_respond (fun s => Engine.allOrNothing_cancel s rk remark) fun _ => rfl
  | uncancel =>
    exact refusesCleanly_withBody fun a =>
      refusesCleanly_respond (fun s => Engine.allOrNothing_uncancel s a.routingKey _) fun _ => rfl

theorem served_headOnly (r : Response) : r.headOnly.served = r.served := by
  unfold Response.headOnly
  split <;> rfl

/-- **A refused request changes nothing.** Whatever the status table, the thresholds, the time and the
state of the store are, and whatever the request is: unless it is served, the records, the live events
and the log are what they were.

A request is refused when its response has no code of success (`hrefused`). This is about stores in
memory. One in tables may refuse an event after the record of its entity was written, when the row of
the live event cannot be read. -/
theorem refused_request_changes_nothing (e : Engine) (now : Instant) (r : Request) (s : MemoryStore)
    (hrefused : (handle e now r s).1.served = false) : (handle e now r s).2 = s := by
  have hserve (p : Endpoint) := refusesCleanly_serve e now r p s
  unfold handle at hrefused ⊢
  by_cases hoptions : r.method = "OPTIONS"
  · rw [if_pos hoptions]
  rw [if_neg hoptions] at hrefused ⊢
  cases hpath : Endpoint.onPath r.target.path with
  | nil => rfl
  | cons endpoint endpoints =>
    rw [hpath] at hrefused
    dsimp only at hrefused ⊢
    cases hmethod : (endpoint :: endpoints).lookup r.method with
    | some p =>
      rw [hmethod] at hrefused
      exact hserve p hrefused
    | none =>
      rw [hmethod] at hrefused
      dsimp only at hrefused ⊢
      -- The method is not one of the path, and may still be answered as a `GET` without the body.
      cases hget : (endpoint :: endpoints).lookup "GET" with
      | none => rfl
      | some p =>
        rw [hget] at hrefused
        dsimp only at hrefused ⊢
        by_cases hhead : r.method = "HEAD"
        · rw [if_pos hhead] at hrefused ⊢
          exact hserve p ((served_headOnly _).symm.trans hrefused)
        · rw [if_neg hhead]

/-- A request with a document in its body. -/
def submitted (path body : String) : Request := ⟨"POST", ⟨path, ⟨[]⟩⟩, some "application/json", body⟩

/-- What an engine with the standard table and thresholds answers at noon. -/
def answer (r : Request) (s : MemoryStore) : Response × MemoryStore :=
  handle (.of .standard .standard) ⟨43200, by decide, by decide⟩ r s

/-- The store after two events that agree in nothing but their key. The live event has the component of
the second one and the resource of the first one, and no event ever reported on that entity. -/
def clashed : MemoryStore :=
  (answer (submitted "/api/events" "\x7b\"rk\":\"k\",\"component\":\"b\"\x7d")
    (answer (submitted "/api/events"
      "\x7b\"rk\":\"k\",\"component\":\"a\",\"resource\":\"r\"\x7d") .empty).2).2

def cancelClashed : Request :=
  submitted "/api/cancel" "\x7b\"rk\":\"k\",\"author\":\"operator\"\x7d"

theorem refused_request_changes_nothing_clashed :
    (answer cancelClashed clashed).1.served = false ∧ (answer cancelClashed clashed).1.code = 404 ∧
      (answer cancelClashed clashed).2 = clashed := by
  obtain ⟨hrefused, hcode⟩ : (answer cancelClashed clashed).1.served = false ∧
      (answer cancelClashed clashed).1.code = 404 := by
    decide +kernel
  exact ⟨hrefused, hcode, refused_request_changes_nothing _ _ cancelClashed clashed hrefused⟩

end Router
end AlertStatus
