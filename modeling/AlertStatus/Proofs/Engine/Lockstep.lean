import AlertStatus.Proofs.Store.Linked

/-!
# Sessions over two stores

Where every operation of two stores matches, everything that can be asked of an engine, its tracker and
its archive matches, and so does the HTTP interface: the same replies, and stores that are linked again.
A sweep may fail for single records, so it is followed record by record.

Events are handed on as they came. What has to be fine is therefore said of the events that a command
brings, nothing of those that it finds.
-/

set_option autoImplicit false

namespace AlertStatus

open AlertStatus.Action

/-! ## 1. Replies and responses -/

section Replies

variable {σ τ : Type} {R : σ → τ → Prop}

theorem runOn_ofEffect {ε : Type} (x : Action σ ε Unit) (s : σ) :
    (Reply.ofEffect x).runOn s = ((x.runOn s).1.map fun _ => .nothing, (x.runOn s).2) := by
  rw [Reply.ofEffect, runOn_bind]
  rcases x.runOn s with ⟨_ | _, _⟩ <;> rfl

theorem matches_ofEffect {ε : Type} {x : Action σ ε Unit} {y : Action τ ε Unit}
    (hx : Matches R x y fun _ => True) :
    Matches R (Reply.ofEffect x) (Reply.ofEffect y) fun _ => True :=
  hx.map _

theorem agree_respond {α : Type} {x : Action σ EngineError α} {y : Action τ EngineError α}
    (hx : Matches R x y fun _ => True) (answer : α → Response) :
    Agree R (Router.respond x answer) (Router.respond y answer) := by
  intro s t hst
  obtain ⟨heq, hR, -⟩ := hx s t hst
  unfold Router.respond
  generalize x.runOn s = out at heq hR
  generalize y.runOn t = out' at heq hR
  obtain ⟨o, s'⟩ := out
  obtain ⟨o', t'⟩ := out'
  cases heq
  cases o <;> exact ⟨rfl, hR⟩

/-- A body is read without the store. -/
theorem agree_withBody {α : Type} [Readable α] (r : Request) {f : α → σ → Response × σ}
    {g : α → τ → Response × τ} (hf : ∀ a, Router.body α r = .ok a → Agree R (f a) (g a)) :
    Agree R (Router.withBody α r f) (Router.withBody α r g) := by
  intro s t hst
  unfold Router.withBody
  cases hbody : Router.body α r with
  | error _ => exact ⟨rfl, hst⟩
  | ok a => exact hf a hbody s t hst

theorem agree_withRemark (r : Request) (now : Instant) {f : String → Remark → σ → Response × σ}
    {g : String → Remark → τ → Response × τ} (hf : ∀ rk c, Agree R (f rk c) (g rk c)) :
    Agree R (Router.withRemark r now f) (Router.withRemark r now g) := by
  refine agree_withBody r fun a _ => ?_
  split
  · exact fun _ _ hst => ⟨rfl, hst⟩
  · exact hf _ _

theorem agree_withParameter (r : Request) (name : String) {f : String → σ → Response × σ}
    {g : String → τ → Response × τ} (hf : ∀ v, Agree R (f v) (g v)) :
    Agree R (Router.withParameter r name f) (Router.withParameter r name g) := by
  intro s t hst
  unfold Router.withParameter
  cases r.target.query.required name with
  | none => exact ⟨rfl, hst⟩
  | some v => exact hf v s t hst

/-- No look-up posts an event. -/
theorem Endpoint.lookup_get_ne (path : String) :
    (Endpoint.onPath path).lookup "GET" ≠ some .postEvent := by
  intro hlookup
  obtain ⟨l₁, l₂, hl, -⟩ := List.lookup_eq_some_iff.mp hlookup
  have hmem : ("GET", Endpoint.postEvent) ∈ Endpoint.onPath path :=
    hl ▸ List.mem_append_right _ List.mem_cons_self
  obtain ⟨route, hroute, heq⟩ := List.mem_map.mp hmem
  have hall : ∀ route ∈ Endpoint.routes, route.2 ≠ ("GET", Endpoint.postEvent) := by decide
  exact hall route (List.mem_filter.mp hroute).1 heq

end Replies

/-- The event that a request posts, if it posts one. -/
def Router.posted (r : Request) : Option Event :=
  if (Endpoint.onPath r.target.path).lookup r.method = some .postEvent then
    (Router.body Event r).toOption
  else none

variable {σ τ : Type} [Store σ] [Store τ]

namespace Linked.Whole

variable {R : σ → τ → Prop} {fine : Json → Prop} (h : Linked.Whole R fine)

section Programs

include h

/-! ## 3. The sweep -/

theorem findExpired (t : Tracker) (now : Instant) :
    Matches R (t.findExpired now) (t.findExpired now) fun _ => True :=
  (h.expiredStatuses _ _).rename _

theorem follow (r : StatusRecord) {s : σ} {t : τ} (hst : R s t) :
    R (Engine.follow r s) (Engine.follow r t) := by
  unfold Engine.follow
  cases r.routingKey with
  | none => exact hst
  | some rk => exact (h.setStatus trivial r.value s t hst).2.1

/-- The report and the store are followed together through the loop of a sweep. -/
theorem sweepOne (e : Engine) (now : Instant) (entity : String) {acc : SweepReport × σ}
    {acc' : SweepReport × τ} (hacc : acc.1 = acc'.1 ∧ R acc.2 acc'.2) :
    (e.sweepOne now acc entity).1 = (e.sweepOne now acc' entity).1 ∧
      R (e.sweepOne now acc entity).2 (e.sweepOne now acc' entity).2 := by
  obtain ⟨report, s⟩ := acc
  obtain ⟨report', t⟩ := acc'
  obtain ⟨hreport, hst⟩ := hacc
  cases hreport
  obtain ⟨heq, hR, -⟩ := h.expire e.tracker trivial now s t hst
  unfold Engine.sweepOne
  dsimp only
  generalize (e.tracker.expire entity now).runOn s = out at heq hR
  generalize (e.tracker.expire entity now).runOn t = out' at heq hR
  obtain ⟨o, s'⟩ := out
  obtain ⟨o', t'⟩ := out'
  cases heq
  cases o with
  | error _ => exact ⟨rfl, hR⟩
  | ok o =>
    cases o with
    | none => exact ⟨rfl, hR⟩
    | some r => exact ⟨rfl, h.follow r hR⟩

/-- **A sweep** examines, resolves and fails on the same records over both stores. -/
theorem sweep (e : Engine) (now : Instant) : Agree R (e.sweep now) (e.sweep now) := by
  intro s t hst
  obtain ⟨heq, hR, -⟩ := h.findExpired e.tracker now s t hst
  unfold Engine.sweep
  generalize (e.tracker.findExpired now).runOn s = out at heq hR
  generalize (e.tracker.findExpired now).runOn t = out' at heq hR
  obtain ⟨o, s'⟩ := out
  obtain ⟨o', t'⟩ := out'
  cases heq
  cases o with
  | error _ => exact ⟨rfl, hR⟩
  | ok found =>
    let Alike (acc : SweepReport × σ) (acc' : SweepReport × τ) : Prop :=
      acc.1 = acc'.1 ∧ R acc.2 acc'.2
    exact List.foldl_rel (r := Alike) ⟨rfl, hR⟩ fun entity _ _ _ hacc => h.sweepOne e now entity hacc

/-! ## 4. The operations of an operator -/

theorem entityOf (rk : String) :
    Matches R (Engine.entityOf rk) (Engine.entityOf rk) fun _ => True := by
  refine ((h.getEvent rk trivial).rename _).bind fun o _ => ?_
  cases o with
  | none => exact Matches.fail _ _
  | some e =>
    dsimp only
    cases e.entityId with
    | ok entity => exact Matches.done _
    | error _ => exact Matches.fail _ _

theorem engineCancel (rk : String) (c : Remark) :
    Matches R (Engine.cancel rk c) (Engine.cancel rk c) fun _ => True :=
  (h.entityOf rk).bind fun _ _ => ((h.cancel trivial _).rename _).bind fun _ _ =>
    ((h.markCanceled trivial c).rename _).bind fun _ _ => Matches.done _

theorem engineUncancel (rk : String) (time : Instant) :
    Matches R (Engine.uncancel rk time) (Engine.uncancel rk time) fun _ => True :=
  (h.entityOf rk).bind fun _ _ => ((h.uncancel trivial _).rename _).bind fun _ _ =>
    ((h.markUncanceled trivial _).rename _).bind fun _ _ => Matches.done _

theorem engineAcknowledge (rk : String) (ack : Remark) :
    Matches R (Engine.acknowledge rk ack) (Engine.acknowledge rk ack) fun _ => True :=
  (h.entityOf rk).bind fun _ _ => (h.acknowledge trivial ack).rename _

theorem engineRemoveAck (rk : String) :
    Matches R (Engine.removeAck rk) (Engine.removeAck rk) fun _ => True :=
  (h.entityOf rk).bind fun _ _ => (h.removeAck trivial).rename _

theorem status (entity : String) :
    Matches R (Engine.status entity) (Engine.status entity) fun _ => True :=
  (h.trackerGet trivial).rename _

theorem event (rk : String) : Matches R (Engine.event rk) (Engine.event rk) fun _ => True :=
  ((h.getEvent rk trivial).weaken fun _ _ => trivial).rename _

theorem history (rk : String) :
    Matches R (Engine.history rk) (Engine.history rk) fun _ => True :=
  (h.getLog rk).rename _

/-! ## 5. Commands -/

theorem engine (e : Engine) (now : Instant) {c : EngineCommand}
    (hc : ∀ ev, c = .processEvent ev → ev.Carries fine) :
    Matches R (c.run e now) (c.run e now) fun _ => True := by
  cases c with
  | processEvent ev =>
    exact (h.processEvent e now (fun _ _ => trivial) trivial (hc ev rfl)).map _
  | sweep t => exact (Matches.total (h.sweep e t)).map _
  | beat t => exact (Matches.total (h.sweep e (t.getD now))).map _
  | cancel rk c => exact (h.engineCancel rk c).map _
  | uncancel rk t => exact (h.engineUncancel rk t).map _
  | acknowledge rk ack => exact matches_ofEffect (h.engineAcknowledge rk ack)
  | removeAck rk => exact matches_ofEffect (h.engineRemoveAck rk)
  | status entity => exact (h.status entity).map _
  | event rk => exact (h.event rk).map _
  | history rk => exact (h.history rk).map _
  | policy => exact Matches.done _

theorem tracker (t : Tracker) (c : TrackerCommand) :
    Matches R (c.run t) (c.run t) fun _ => True := by
  cases c with
  | process entity rk c => exact (h.process t trivial rk c).map _
  | cancel entity time => exact (h.cancel trivial time).map _
  | uncancel entity time => exact (h.uncancel trivial time).map _
  | expire entity now => exact (h.expire t trivial now).map _
  | findExpired now => exact (h.findExpired t now).map _
  | status entity => exact (h.trackerGet trivial).map _
  | settings => exact Matches.done _

theorem archiveCommand (a : Archive) (now : Instant) {c : ArchiveCommand}
    (hc : ∀ ev, c = .process ev → ev.Carries fine) :
    Matches R (c.run a now) (c.run a now) fun _ => True := by
  cases c with
  | process ev => exact (h.archive a now trivial (hc ev rfl)).map _
  | acknowledge rk ack => exact matches_ofEffect (h.acknowledge trivial ack)
  | removeAck rk => exact matches_ofEffect (h.removeAck trivial)
  | markCanceled rk c => exact matches_ofEffect (h.markCanceled trivial c)
  | markUncanceled rk s => exact matches_ofEffect (h.markUncanceled trivial s)
  | setStatus rk s => exact matches_ofEffect (h.setStatus trivial s)
  | event rk => exact ((h.getEvent rk trivial).weaken fun _ _ => trivial).map _
  | history rk => exact (h.getLog rk).map _

theorem storeCommand {c : StoreCommand} (hput : ∀ rk ev, c = .putEvent rk ev → ev.Carries fine)
    (hchange : ∀ rk change, c = .updateEvent rk change → Event.Mild fine change)
    (hlog : ∀ entry, c = .appendLog entry → entry.event.Carries fine) :
    Matches R c.run c.run fun _ => True := by
  cases c with
  | putStatus entity r => exact matches_ofEffect (h.putStatus entity r trivial)
  | getStatus entity => exact (h.getStatus entity trivial).map _
  | expiredStatuses a b => exact (h.expiredStatuses a b).map _
  | putEvent rk ev => exact matches_ofEffect (h.putEvent rk ev trivial (hput rk ev rfl))
  | getEvent rk => exact ((h.getEvent rk trivial).weaken fun _ _ => trivial).map _
  | updateEvent rk change =>
    exact matches_ofEffect (h.updateEvent rk change trivial (hchange rk change rfl))
  | appendLog entry => exact matches_ofEffect (h.appendEntry entry (hlog entry rfl))
  | getLog rk => exact (h.getLog rk).map _

/-! ## 6. The HTTP interface -/

theorem serve (e : Engine) (now : Instant) (r : Request) {endpoint : Endpoint}
    (hr : endpoint = .postEvent → ∀ ev, Router.body Event r = .ok ev → ev.Carries fine) :
    Agree R (Router.serve e now r endpoint) (Router.serve e now r endpoint) := by
  cases endpoint with
  | postEvent =>
    exact agree_withBody r fun ev hev =>
      agree_respond (h.processEvent e now (fun _ _ => trivial) trivial (hr rfl ev hev)) _
  | getEvent => exact agree_withParameter r "rk" fun rk => agree_respond (h.event rk) _
  | getLog => exact agree_withParameter r "rk" fun rk => agree_respond (h.history rk) _
  | getStatus => exact agree_withParameter r "entity_id" fun id => agree_respond (h.status id) _
  | sweep =>
    intro s t hst
    unfold Router.serve
    dsimp only
    cases r.target.query.optionalInstant "now" with
    | none => exact ⟨rfl, hst⟩
    | some time =>
      obtain ⟨heq, hR⟩ := h.sweep e (time.getD now) s t hst
      exact ⟨congrArg (fun p => Response.document p.toJson) heq, hR⟩
  | acknowledge =>
    exact agree_withRemark r now fun rk ack => agree_respond (h.engineAcknowledge rk ack) _
  | removeAck =>
    exact agree_withBody r fun a _ => agree_respond (h.engineRemoveAck a.routingKey) _
  | cancel => exact agree_withRemark r now fun rk c => agree_respond (h.engineCancel rk c) _
  | uncancel =>
    exact agree_withBody r fun a _ =>
      agree_respond (h.engineUncancel a.routingKey (a.timestamp.getD now)) _

/-- **A request** is answered alike over both stores. An event that it posts has to carry fine values
(`hr`); everything else that a request brings is made of texts and numbers, which all stores keep
alike. -/
theorem handle (e : Engine) (now : Instant) (r : Request)
    (hr : ∀ ev, Router.posted r = some ev → ev.Carries fine) :
    Agree R (Router.handle e now r) (Router.handle e now r) := by
  intro s t hst
  unfold Router.handle
  split
  · exact ⟨rfl, hst⟩
  · split
    · exact ⟨rfl, hst⟩
    · split
      · rename_i endpoint hendpoint
        refine h.serve e now r ?_ s t hst
        rintro rfl ev hev
        refine hr ev ?_
        rw [Router.posted, if_pos hendpoint, hev]
        rfl
      · split
        · rename_i endpoint hendpoint
          split
          · -- The head of a look-up: the store is left as the look-up leaves it.
            have hlook : endpoint ≠ .postEvent := by
              rintro rfl
              exact Endpoint.lookup_get_ne _ hendpoint
            obtain ⟨heq, hR⟩ := h.serve e now r (fun hpost => absurd hpost hlook) s t hst
            exact ⟨congrArg Response.headOnly heq, hR⟩
          · exact ⟨rfl, hst⟩
        · exact ⟨rfl, hst⟩

end Programs

end Linked.Whole
end AlertStatus
