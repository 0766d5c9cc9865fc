import AlertStatus.Proofs.Engine.Steps
import AlertStatus.Proofs.Event.Retention

/-!
# What operators attached, when the alert is over

Operators attach an acknowledgement and a ticket to a live event. A merge clears both when the entity
is off, so that the next alert starts without them. But a check is not the only way to become off. A
sweep and the lifting of a cancellation write the status alone, and what was attached stays.

`cleared_iff_of_run` says exactly when a live event that becomes off is cleared, and
`handling_outlives_sweep` is a run in which it is not.
-/

set_option autoImplicit false

namespace AlertStatus

/-! ## 1. What operators attach -/

/-- The acknowledgement and the ticket of a live event. -/
structure Handling where
  ack : Option Remark
  ticket : Option String
  ticketDate : Option Instant
  ticketAuthor : Option String
  ticketDeclared : Option Instant
deriving DecidableEq

/-- Nobody has attached anything. -/
def Handling.none : Handling := ⟨.none, .none, .none, .none, .none⟩

namespace Event

/-- What operators attached to the event. -/
def handling (e : Event) : Handling :=
  ⟨e.ack, e.ticket, e.ticketDate, e.ticketAuthor, e.ticketDeclared⟩

variable {e prior d : Event} {excluded : List String}

/-- Nothing is attached if the fields of the acknowledgement and of the ticket are missing. -/
theorem handling_eq_none (hack : e.ack = none) (hticket : ∀ k ∈ ticketFields, e.known k = none) :
    e.handling = .none := by
  have hticket₁ := Option.map_eq_none_iff.mp (hticket "ticket" (by decide))
  have hdate := Option.map_eq_none_iff.mp (hticket "ticket_date" (by decide))
  have hauthor := Option.map_eq_none_iff.mp (hticket "ticket_declared_author" (by decide))
  have hdeclared := Option.map_eq_none_iff.mp (hticket "ticket_declared_date" (by decide))
  unfold handling
  rw [hack, hticket₁, hdate, hauthor, hdeclared]
  rfl

theorem known_of_handling (h : e.handling = .none) :
    e.ack = none ∧ ∀ k ∈ ticketFields, e.known k = none := by
  obtain ⟨hack, hticket, hdate, hauthor, hdeclared⟩ := Handling.mk.inj h
  refine ⟨hack, fun k hk => ?_⟩
  fin_cases hk
  · exact Option.map_eq_none_iff.mpr hticket
  · exact Option.map_eq_none_iff.mpr hdate
  · exact Option.map_eq_none_iff.mpr hauthor
  · exact Option.map_eq_none_iff.mpr hdeclared

@[simp] theorem stamped_handling (e prior : Event) (t : Instant) :
    (e.stamped prior t).handling = e.handling := by
  rw [stamped_eq]
  rfl

/-- **A merge clears it all** when the entity is off, whatever was attached before. What the event
itself brings is not cleared (`he`): it is written where nothing was attached. -/
theorem handling_merged_of_off (h : prior.update? (e.changeOf excluded prior) = some d)
    (he : e.handling = .none) (hs : e.effectiveStatus = .off) : d.handling = .none := by
  obtain ⟨hack, hticket⟩ := known_of_handling he
  have hcleared {k : String} (hk : k ∈ clearedFields) := known_merged_of_off_of_none h hk hs
  refine handling_eq_none ?_ fun k hk => ?_
  · have hknown : e.known "ack" = none := congrArg (Option.map Remark.toJson) hack
    exact Option.map_eq_none_iff.mp (hcleared List.mem_cons_self hknown)
  · exact hcleared (List.mem_cons_of_mem _ (List.mem_cons_of_mem _ hk)) (hticket k hk)

end Event

namespace World

variable {p : Policy} {now : Instant} {w w' : World} {rk : String} {e e' : Event} {s : Status}

/-! ## 2. The moves -/

/-- A sweep leaves what is attached. -/
theorem Sweeps.handling_eq (h : Sweeps p now w w') (he : w.live rk = some e)
    (he' : w'.live rk = some e') : e'.handling = e.handling := by
  obtain ⟨s, x, hlive⟩ := h.live rk
  rw [he, he'] at hlive
  rw [Option.some.inj hlive]
  rfl

/-- A live event that a check leaves off has nothing attached, if the event of the check brought
nothing. -/
theorem handling_archived {excluded : List String} {ev prior d : Event}
    (hp : "status" ∉ excluded) (hbare : ev.handling = .none)
    (hd : archived? excluded now (reported now ev s) (some prior) = some d)
    (hoff : d.status = some .off) : d.handling = .none := by
  have hstamped : (((reported now ev s).identified now).stamped prior
      ((reported now ev s).timestamp.getD now)).status = some s := by
    rw [Event.stamped_status]
    rfl
  have hs : s = .off := by
    rw [Event.status_merged hd hp hstamped] at hoff
    exact Option.some.inj hoff
  refine Event.handling_merged_of_off hd ?_ ?_
  · rw [Event.stamped_handling]
    exact hbare
  · unfold Event.effectiveStatus
    rw [hstamped, hs]
    rfl

/-- **A live event that becomes off is cleared by a check and by no other move.** The sweep and the
lifting of a cancellation leave what is attached as it is. The live event was not off before (`hs`):
one that is off and stays so may have something attached, for the same reason. -/
theorem Step.handling {c : EngineCommand} (h : Step p now c w w') (hp : "status" ∉ p.exclusionFields)
    (hbare : ∀ ev, c = .processEvent ev → ev.routingKey = rk → ev.handling = .none)
    (he : w.live rk = some e) (hs : e.status ≠ some .off)
    (he' : w'.live rk = some e') (hs' : e'.status = some .off) :
    (∃ ev, c = .processEvent ev) ∧ e'.handling = .none ∨
      (∀ ev, c ≠ .processEvent ev) ∧ e'.handling = e.handling := by
  have hmoved : e' ≠ e := by
    rintro rfl
    exact hs hs'
  -- A move that sets one live event concerns the one that became off.
  have hset : ∀ {w₁ : World} {rk₁ : String} {d : Event}, w₁.live = w.live →
      (w₁.setLive rk₁ d).live rk = some e' → rk = rk₁ ∧ d = e' := by
    intro w₁ rk₁ d hlive h₁
    rw [live_setLive] at h₁
    split at h₁
    · rename_i heq
      exact ⟨heq, Option.some.inj h₁⟩
    · rw [hlive, he] at h₁
      exact absurd (Option.some.inj h₁).symm hmoved
  cases h with
  | idle =>
    rw [he] at he'
    exact absurd (Option.some.inj he').symm hmoved
  | @check _ ev d id r x hid hr hd =>
    obtain ⟨rfl, rfl⟩ := hset rfl he'
    rw [he] at hd
    have hcleared : d.handling = .none := handling_archived hp (hbare ev rfl rfl) hd hs'
    exact Or.inl ⟨⟨ev, rfl⟩, hcleared⟩
  | sweep h => exact Or.inr ⟨fun _ hc => EngineCommand.noConfusion hc, h.handling_eq he he'⟩
  | beat h => exact Or.inr ⟨fun _ hc => EngineCommand.noConfusion hc, h.handling_eq he he'⟩
  | cancel he₁ =>
    -- A canceled event is not off.
    obtain ⟨rfl, rfl⟩ := hset rfl he'
    cases hs'
  | uncancel he₁ =>
    obtain ⟨rfl, rfl⟩ := hset rfl he'
    rw [he] at he₁
    cases he₁
    exact Or.inr ⟨fun _ hc => EngineCommand.noConfusion hc, rfl⟩
  | acknowledge he₁ =>
    obtain ⟨rfl, rfl⟩ := hset rfl he'
    rw [he] at he₁
    cases he₁
    exact absurd hs' hs
  | removeAck he₁ =>
    obtain ⟨rfl, rfl⟩ := hset rfl he'
    rw [he] at he₁
    cases he₁
    exact absurd hs' hs

end World

/-! ## 3. Runs -/

namespace Backend

open World

/-- **When a run takes a live event from another status to off, nothing is attached to it any more if
and only if the last command was a check or nothing was attached before.** The other commands leave
what is attached as it is.

An event that a check brings to this routing key must bring nothing of its own (`hbare`), which would
be attached where nothing was. The status is not excluded (`hp`), so that the status of the live event
is the one by which a merge clears. The events of the run are ones that the store keeps (`hkept`), as
every store does with those that come from texts (`Medium.keeps_of_readText`); another one could not be
read again. -/
theorem cleared_iff_of_run (m : Medium) (p : Policy) (hp : "status" ∉ p.exclusionFields)
    (run : List (Instant × EngineCommand)) (now : Instant) (c : EngineCommand)
    (hkept : ∀ ev ∈ brought (run ++ [(now, c)]), m.Keeps ev) (rk : String)
    (hbare : ∀ ev, c = .processEvent ev → ev.routingKey = rk → ev.handling = .none) {e e' : Event}
    (he : (after p run (blank m)).eventAt rk = .ok (some e)) (hs : e.status ≠ some .off)
    (he' : (after p (run ++ [(now, c)]) (blank m)).eventAt rk = .ok (some e'))
    (hs' : e'.status = some .off) :
    (e'.handling = .none ↔ (∃ ev, c = .processEvent ev) ∨ e.handling = .none) ∧
      ((∀ ev, c ≠ .processEvent ev) → e'.handling = e.handling) := by
  obtain ⟨w, hw, -⟩ := exists_reflects_after (I := fun _ => True) p run
    (fun ev hev => hkept ev (by rw [brought_append]; exact List.mem_append_left _ hev))
    (fun _ _ _ _ _ _ => trivial) (reflects_blank m) trivial
  have hlive : w.live rk = some e := Except.ok.inj ((hw.events rk).symm.trans he)
  have hlast : after p (run ++ [(now, c)]) (blank m) =
      ((c.run (Engine.of .standard p) now).runOn (after p run (blank m))).2 := by
    exact List.foldl_append
  have hc : ∀ ev, c.event? = some ev → m.Keeps ev := fun ev hev =>
    hkept ev (mem_brought (List.mem_append_right _ (List.mem_singleton_self (now, c))) hev)
  rw [hlast] at he'
  rcases tries_run p now c hc w _ hw with ⟨x, b', hrun, hb'⟩ | ⟨a, b', w', hrun, hb', hstep⟩
  · -- A refused command leaves the live event, so it did not become off.
    rw [hrun] at he'
    have hsame := (hb'.events rk).symm.trans he'
    rw [hlive] at hsame
    cases hsame
    exact absurd hs' hs
  · rw [hrun] at he'
    have hlive' : w'.live rk = some e' := Except.ok.inj ((hb'.events rk).symm.trans he')
    rcases hstep.handling hp hbare hlive hs hlive' hs' with ⟨hcheck, hnone⟩ | ⟨hother, hsame⟩
    · obtain ⟨ev, rfl⟩ := hcheck
      exact ⟨⟨fun _ => Or.inl ⟨ev, rfl⟩, fun _ => hnone⟩, fun h => absurd rfl (h ev)⟩
    · refine ⟨?_, fun _ => hsame⟩
      rw [hsame]
      exact ⟨Or.inr, fun h => h.resolve_left fun ⟨ev, hev⟩ => hother ev hev⟩

/-! ## 4. Two runs -/

/-- What is seen of a live event. -/
def glance {α : Type} (b : Backend) (rk : String) (f : Event → α) : Except StoreError (Option α) :=
  (b.eventAt rk).map (Option.map f)

theorem exists_of_map_eq {α β : Type} {o : Except StoreError (Option α)} {f : α → β} {y : β}
    (h : o.map (Option.map f) = .ok (some y)) : ∃ x, o = .ok (some x) ∧ f x = y := by
  cases o with
  | error x => cases h
  | ok o =>
    obtain ⟨x, rfl, hx⟩ := Option.map_eq_some_iff.mp (Except.ok.inj h)
    exact ⟨x, rfl, hx⟩

theorem exists_of_glance {α : Type} {b : Backend} {rk : String} {f : Event → α} {a : α}
    (h : b.glance rk f = .ok (some a)) : ∃ e, b.eventAt rk = .ok (some e) ∧ f e = a :=
  exists_of_map_eq h

/-- An alert is acknowledged and recovers soon after. -/
def acknowledgedAlert : List (Instant × EngineCommand) :=
  [(atSecond 0, .processEvent (.webCheck 2 1000)),
    (atSecond 1, .acknowledge webKey ⟨"operator", none, atSecond 1001⟩),
    (atSecond 2, .processEvent (.webCheck 0 1100))]

/-- Nothing more is heard of it, and a sweep settles it. -/
def thenSwept : List (Instant × EngineCommand) :=
  acknowledgedAlert ++ [(atSecond 3, .sweep (atSecond 2000))]

/-- It is canceled. -/
def thenCanceled : List (Instant × EngineCommand) :=
  acknowledgedAlert ++ [(atSecond 3, .cancel webKey ⟨"operator", none, atSecond 1200⟩)]

/-- The cancellation is lifted. -/
def lifting : EngineCommand := .uncancel webKey (atSecond 1300)

theorem brought_acknowledgedAlert : ∀ e ∈ brought acknowledgedAlert, ∃ s t, e = .webCheck s t := by
  intro e he
  fin_cases he
  · exact ⟨_, _, rfl⟩
  · exact ⟨_, _, rfl⟩

theorem handling_outlives_sweep :
    Policy.standard.exclusionFields = [] ∧ Addressed (brought thenSwept) ∧
      (∀ ev ∈ brought thenSwept, ev.handling = .none) ∧ ∃ e e',
        (after .standard acknowledgedAlert (blank .values)).eventAt webKey = .ok (some e) ∧
          e.status = some .stealthy ∧
        (after .standard thenSwept (blank .values)).eventAt webKey = .ok (some e') ∧
          e'.status = some .off ∧
        e'.ack = some ⟨"operator", none, atSecond 1001⟩ := by
  refine ⟨rfl, addressed_webChecks brought_acknowledgedAlert, ?_, ?_⟩
  · intro ev hev
    obtain ⟨s, t, rfl⟩ := brought_acknowledgedAlert ev hev
    rfl
  · obtain ⟨hbefore, hafter⟩ :
        (after .standard acknowledgedAlert (blank .values)).glance webKey Event.status =
          .ok (some (some .stealthy)) ∧
        (after .standard thenSwept (blank .values)).glance webKey (fun e => (e.status, e.ack)) =
          .ok (some (some .off, some ⟨"operator", none, atSecond 1001⟩)) := by
      decide +kernel
    obtain ⟨e, he, hs⟩ := exists_of_glance hbefore
    obtain ⟨e', he', hs'⟩ := exists_of_glance hafter
    exact ⟨e, e', he, hs, he', congrArg Prod.fst hs', congrArg Prod.snd hs'⟩

/-- The acknowledgement outlives the alert also when a cancellation is lifted. -/
theorem cleared_iff_of_run_lifting :
    "status" ∉ Policy.standard.exclusionFields ∧
      (∀ ev ∈ brought (thenCanceled ++ [(atSecond 4, lifting)]),
        Medium.values.Keeps ev) ∧
      (∀ ev, lifting = .processEvent ev → ev.routingKey = webKey → ev.handling = .none) ∧
      ∃ e e',
        (after .standard thenCanceled (blank .values)).eventAt webKey = .ok (some e) ∧
        e.status ≠ some .off ∧
        (after .standard (thenCanceled ++ [(atSecond 4, lifting)])
          (blank .values)).eventAt webKey = .ok (some e') ∧
        e'.status = some .off ∧ e.handling ≠ .none ∧
        (e'.handling = .none ↔ (∃ ev, lifting = .processEvent ev) ∨ e.handling = .none) ∧
        ((∀ ev, lifting ≠ .processEvent ev) → e'.handling = e.handling) := by
  have hbare : ∀ ev, lifting = .processEvent ev → ev.routingKey = webKey → ev.handling = .none :=
    fun ev hev => EngineCommand.noConfusion hev
  obtain ⟨hbefore, hafter⟩ :
      (after .standard thenCanceled (blank .values)).glance webKey (fun e => (e.status, e.ack)) =
        .ok (some (some .canceled, some ⟨"operator", none, atSecond 1001⟩)) ∧
      (after .standard (thenCanceled ++ [(atSecond 4, lifting)]) (blank .values)).glance webKey
        Event.status = .ok (some (some .off)) := by
    decide +kernel
  obtain ⟨e, he, hs⟩ := exists_of_glance hbefore
  obtain ⟨e', he', hs'⟩ := exists_of_glance hafter
  obtain ⟨hstatus, hack⟩ := Prod.mk.inj hs
  have hcanceled : e.status ≠ some .off := by
    rw [hstatus]
    exact fun h => Status.noConfusion (Option.some.inj h)
  have hattached : e.handling ≠ .none := by
    intro h
    rw [(Event.known_of_handling h).1] at hack
    cases hack
  exact ⟨by decide, fun _ _ => trivial, hbare, e, e', he, hcanceled, he', hs', hattached,
    cleared_iff_of_run .values .standard (by decide) _ _ _ (fun _ _ => trivial) webKey hbare he
      hcanceled he' hs'⟩

end Backend
end AlertStatus
