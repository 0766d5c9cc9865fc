import AlertStatus.Proofs.Status.Oscillation
import AlertStatus.Proofs.Status.Renewal

/-!
# A cancellation forgets

A record that leaves a cancellation is the record of an entity that is first seen just then, up to two
fields: when the state last changed, and which event was processed last. Neither decides anything again.
The second is never read. The first one stands in for the start of an alert that has none, and a coherent
record has one wherever a rule asks for it (`StatusRecord.processOngoing_relabel`). So the two records go
the same way from then on, whatever is done to them.
-/

set_option autoImplicit false

namespace AlertStatus
namespace StatusRecord

variable {p : Policy} {r r' : StatusRecord}

/-! ## 1. Records up to their labels -/

/-- The records agree in all that decides about them: in every field but the time of the last change of
state and the routing key. -/
structure Alike (r r' : StatusRecord) : Prop where
  value : r.value = r'.value
  state : r.state = r'.state
  timestamp : r.timestamp = r'.timestamp
  pendingTime : r.pendingTime = r'.pendingTime
  stealthyTime : r.stealthyTime = r'.stealthyTime
  flappingTimes : r.flappingTimes = r'.flappingTimes

/-- The record with another last change and another routing key. -/
def relabel (r : StatusRecord) (since : Instant) (key : Option String) : StatusRecord :=
  { r with lastStateChange := since, routingKey := key }

theorem alike_iff : r.Alike r' ↔ ∃ since key, r' = r.relabel since key := by
  constructor
  · rintro ⟨hv, hs, ht, hp, hst, hf⟩
    refine ⟨r'.lastStateChange, r'.routingKey, ?_⟩
    rw [relabel, hv, hs, ht, hp, hst, hf]
  · rintro ⟨since, key, rfl⟩
    exact ⟨rfl, rfl, rfl, rfl, rfl, rfl⟩

theorem Alike.symm (h : r.Alike r') : r'.Alike r :=
  ⟨h.value.symm, h.state.symm, h.timestamp.symm, h.pendingTime.symm, h.stealthyTime.symm,
    h.flappingTimes.symm⟩

theorem Alike.trans {r'' : StatusRecord} (h : r.Alike r') (h' : r'.Alike r'') : r.Alike r'' :=
  ⟨h.value.trans h'.value, h.state.trans h'.state, h.timestamp.trans h'.timestamp,
    h.pendingTime.trans h'.pendingTime, h.stealthyTime.trans h'.stealthyTime,
    h.flappingTimes.trans h'.flappingTimes⟩

/-! ## 2. The machine does not look at labels -/

section Relabel

variable (r : StatusRecord) (p : Policy) (c : Check) (now : Instant) (since : Instant)
  (key : Option String)

theorem settle_relabel : (r.relabel since key).settle c = (r.settle c).relabel since key := by
  unfold settle
  split <;> rfl

theorem observe_relabel :
    (r.relabel since key).observe p c = (r.observe p c).relabel since key := by
  unfold observe noteOscillation
  by_cases h : c.state = r.state
  · rw [if_pos h, if_pos (show c.state = (r.relabel since key).state from h)]
    rfl
  · rw [if_neg h, if_neg (show ¬ c.state = (r.relabel since key).state from h)]
    rfl

theorem processOff_relabel :
    (r.relabel since key).processOff c = (r.processOff c).relabel since key := by
  unfold processOff
  split <;> rfl

/-- An alert that knows its start does not ask when the state changed. -/
theorem processOngoing_relabel (hp : r.pendingTime.isSome = true) :
    (r.relabel since key).processOngoing p c = (r.processOngoing p c).relabel since key := by
  obtain ⟨start, hstart⟩ := Option.isSome_iff_exists.mp hp
  have hstart' : (r.relabel since key).pendingTime = some start := hstart
  unfold processOngoing
  dsimp only
  rw [observe_relabel, hstart, hstart']
  simp only [apply_ite fun x : StatusRecord => x.relabel since key]
  rfl

theorem processStealthy_relabel :
    (r.relabel since key).processStealthy p c = (r.processStealthy p c).relabel since key := by
  unfold processStealthy
  dsimp only
  rw [observe_relabel, settle_relabel]
  simp only [apply_ite fun x : StatusRecord => x.relabel since key]
  rfl

theorem processFlapping_relabel :
    (r.relabel since key).processFlapping p c = (r.processFlapping p c).relabel since key := by
  unfold processFlapping
  dsimp only
  rw [observe_relabel, settle_relabel]
  simp only [apply_ite fun x : StatusRecord => x.relabel since key]
  rfl

theorem processCanceled_relabel :
    (r.relabel since key).processCanceled p c = (r.processCanceled p c).relabel since key := by
  unfold processCanceled
  rw [apply_ite fun x : StatusRecord => x.relabel since key, ← settle_relabel]
  rfl

/-- The rule of a coherent record. Coherence matters for an ongoing alert alone, which falls back on
the last change of state when it does not know its start. -/
theorem applyRule_relabel (h : r.Coherent p) :
    (r.relabel since key).value.applyRule (r.relabel since key) p c =
      (r.value.applyRule r p c).relabel since key := by
  show r.value.applyRule (r.relabel since key) p c = _
  unfold Status.applyRule
  cases hv : r.value with
  | off => exact processOff_relabel r c since key
  | ongoing => exact processOngoing_relabel r p c since key (h.ongoing hv).2.1
  | stealthy => exact processStealthy_relabel r p c since key
  | flapping => exact processFlapping_relabel r p c since key
  | canceled => exact processCanceled_relabel r p c since key

/-- The stamp sets the last change to the check's time when there is a change, and to nothing else. -/
theorem stamp_relabel :
    ∃ since', (r.relabel since key).stamp p c = (r.stamp p c).relabel since' key := by
  unfold stamp
  by_cases h : c.state = r.state
  · refine ⟨since, ?_⟩
    rw [if_pos h, if_pos (show c.state = (r.relabel since key).state from h)]
    rfl
  · refine ⟨c.timestamp, ?_⟩
    rw [if_neg h, if_neg (show ¬ c.state = (r.relabel since key).state from h)]
    rfl

theorem resolve_relabel :
    (r.relabel since key).resolve p now = (r.resolve p now).relabel since key := by
  have hvalue : (r.relabel since key).value = r.value := rfl
  cases hv : r.value with
  | stealthy =>
    rw [resolve_of_stealthy hv, resolve_of_stealthy (hvalue.trans hv)]
    exact settle_relabel r _ since key
  | flapping =>
    rw [resolve_of_flapping hv, resolve_of_flapping (hvalue.trans hv),
      apply_ite fun x : StatusRecord => x.relabel since key, ← settle_relabel]
    rfl
  | off | ongoing | canceled =>
    unfold resolve
    rw [hvalue, hv]

end Relabel

/-! ## 3. Alike records stay alike -/

theorem Alike.withKeys (h : r.Alike r') (key key' : Option String) :
    ({ r with routingKey := key } : StatusRecord).Alike { r' with routingKey := key' } :=
  ⟨h.value, h.state, h.timestamp, h.pendingTime, h.stealthyTime, h.flappingTimes⟩

theorem Alike.next (h : r.Alike r') (hc : r.Coherent p) (c : Check) :
    (r.next p c).Alike (r'.next p c) := by
  obtain ⟨since, key, rfl⟩ := alike_iff.mp h
  unfold StatusRecord.next
  rw [applyRule_relabel r p c since key hc]
  obtain ⟨since', heq⟩ := stamp_relabel (r.value.applyRule r p c) p c since key
  exact alike_iff.mpr ⟨since', key, heq⟩

theorem Alike.canceled (h : r.Alike r') (time : Instant) :
    (Tracker.canceled r time).Alike (Tracker.canceled r' time) :=
  ⟨rfl, h.state, rfl, rfl, rfl, h.flappingTimes⟩

/-- What a lifted cancellation leaves is a first sight of the recorded state. -/
theorem alike_restored (r : StatusRecord) (time : Instant) :
    (Tracker.restored r time).Alike (first r.state time) := by
  unfold Tracker.restored settle first
  dsimp only
  split
  · rename_i h
    exact ⟨rfl, rfl, rfl, rfl, rfl, rfl⟩
  · exact ⟨rfl, rfl, rfl, rfl, rfl, rfl⟩

/-- A check that takes a record out of a cancellation leaves a first sight of its state. -/
theorem alike_next_of_canceled {c : Check} (hv : r.value = .canceled)
    (hout : (r.next p c).value ≠ .canceled) : (r.next p c).Alike (first c.state c.timestamp) := by
  have hnext : r.next p c = (r.processCanceled p c).stamp p c := by
    unfold StatusRecord.next Status.applyRule
    rw [hv]
  rw [hnext] at hout ⊢
  unfold processCanceled at hout ⊢
  split at hout
  · exact absurd (stamp_value.trans hv) hout
  · rename_i hlift
    rw [if_neg hlift]
    refine ⟨stamp_value.trans settle_value, stamp_state, stamp_timestamp, ?_, ?_, ?_⟩
    · rw [stamp_pendingTime, settle, first]
      split <;> rfl
    · rw [stamp_stealthyTime, settle]
      split <;> rfl
    · rw [stamp_flappingTimes, settle_flappingTimes]
      rfl

theorem Alike.restored (h : r.Alike r') (time : Instant) :
    (Tracker.restored r time).Alike (Tracker.restored r' time) := by
  refine (alike_restored r time).trans ?_
  rw [h.state]
  exact (alike_restored r' time).symm

theorem Alike.swept (h : r.Alike r') (now : Instant) : (r.swept p now).Alike (r'.swept p now) := by
  obtain ⟨since, key, rfl⟩ := alike_iff.mp h
  unfold StatusRecord.swept
  show StatusRecord.Alike _ (if r.isExpired now p.stealthyShow p.flappingTime then _ else _)
  split
  · exact alike_iff.mpr ⟨since, key, resolve_relabel r p now since key⟩
  · exact h

end StatusRecord

/-! ## 4. One command -/

/-- The check that a command about the entity `id` amounts to, when its record is `r`: its own, or at a
lifted cancellation the recorded state. -/
def TrackerCommand.checkOf (id : String) (r : StatusRecord) : TrackerCommand → Option Check
  | .process entity _ c => if entity = id then some c else none
  | .uncancel entity time => if entity = id then some ⟨r.state, time⟩ else none
  | _ => none

namespace Tracker

variable {p : Policy} {id : String} {r r' : StatusRecord}

/-- **Alike records stay alike**, whatever is asked of the tracker. One of them has to be coherent, by
`applyRule_relabel`, and then the other one is too. -/
theorem alike_renewFor (id : String) (h : r.Alike r') (hr : r.Coherent p) (c : TrackerCommand) :
    ∃ x y, (⟨.standard, p⟩ : Tracker).renewFor id (some r) c = some x ∧
      (⟨.standard, p⟩ : Tracker).renewFor id (some r') c = some y ∧ x.Alike y := by
  unfold renewFor
  split
  · cases c with
    | process entity rk c =>
      refine ⟨_, _, rfl, rfl, ?_⟩
      rw [renewByCheck_standard, renewByCheck_standard, ← h.timestamp]
      split
      · exact h
      · exact (h.next hr c).withKeys _ _
    | cancel entity time => exact ⟨_, _, rfl, rfl, h.canceled time⟩
    | uncancel entity time =>
      refine ⟨_, _, rfl, rfl, ?_⟩
      dsimp only
      rw [← h.value]
      split
      · exact h.restored time
      · exact h
    | expire entity now => exact ⟨_, _, rfl, rfl, h.swept now⟩
    | findExpired | status | settings => exact ⟨r, r', rfl, rfl, h⟩
  · exact ⟨r, r', rfl, rfl, h⟩

/-- **What takes a record out of a cancellation** is a check or the lifting of the cancellation, and what
it leaves is a first sight. -/
theorem alike_of_exit {c : TrackerCommand} (hv : r.value = .canceled)
    (hr' : (⟨.standard, p⟩ : Tracker).renewFor id (some r) c = some r')
    (hout : r'.value ≠ .canceled) :
    ∃ seen, c.checkOf id r = some seen ∧ r'.Alike (.first seen.state seen.timestamp) := by
  unfold renewFor at hr'
  split at hr'
  · rename_i hc
    cases c with
    | process entity rk c =>
      cases hc
      have heq := Option.some.inj hr'
      rw [renewByCheck_standard] at heq
      split at heq
      · exact absurd (heq ▸ hv) hout
      · subst heq
        refine ⟨c, if_pos rfl, ?_⟩
        exact (StatusRecord.alike_next_of_canceled hv hout).withKeys _ none
    | cancel entity time =>
      cases hr'
      exact absurd rfl hout
    | uncancel entity time =>
      cases hc
      have heq := Option.some.inj hr'
      dsimp only at heq
      rw [if_pos hv] at heq
      subst heq
      exact ⟨⟨r.state, time⟩, if_pos rfl, StatusRecord.alike_restored r time⟩
    | expire entity now =>
      have heq : r.swept p now = r' := Option.some.inj hr'
      have hkeep : r.swept p now = r := by
        unfold StatusRecord.swept StatusRecord.resolve
        rw [hv]
        exact ite_self _
      rw [← heq, hkeep] at hout
      exact absurd hv hout
    | findExpired | status | settings => cases hc
  · cases hr'
    exact absurd hv hout

/-! ## 5. Runs -/

theorem alike_foldl (id : String) (h : r.Alike r') (hr : r.Coherent p) (cs : List TrackerCommand) :
    ∃ x y, cs.foldl ((⟨.standard, p⟩ : Tracker).renewFor id) (some r) = some x ∧
      cs.foldl ((⟨.standard, p⟩ : Tracker).renewFor id) (some r') = some y ∧ x.Alike y := by
  induction cs generalizing r r' with
  | nil => exact ⟨r, r', rfl, rfl, h⟩
  | cons c cs ih =>
    obtain ⟨x, y, hx, hy, hxy⟩ := alike_renewFor id h hr c
    have hcoherent : x.Coherent p := coherent_renewFor (o := some r) id (by rintro _ ⟨⟩; exact hr) c x hx
    rw [List.foldl_cons, List.foldl_cons, hx, hy]
    exact ih hxy hcoherent

/-- **A cancellation forgets.** Let a run from no record on (`hb`) leave the entity canceled (`hr`,
`hv`), and let one more command take it out of that (`hr'`, `hout`). Then the record is, up to its
labels, that of an entity first seen in the state and at the time of this command; and after any
further commands it is that of such an entity after the same commands. The two runs may be over stores
of different kinds and contents, and the first check of the new entity may come under another routing
key.

Which command may take an entity out of a cancellation is not assumed. It is a check or the lifting of
the cancellation (`alike_of_exit`), and `checkOf` says which check it amounts to. -/
theorem canceled_forgets (p : Policy) (id : String) (past : List TrackerCommand)
    (exit : TrackerCommand) {b : Backend} (hb : b.recordAt id = .ok none)
    (hr : (Action.runAll (TrackerCommand.run ⟨.standard, p⟩) past b).recordAt id = .ok (some r))
    (hv : r.value = .canceled)
    (hr' : (Action.runAll (TrackerCommand.run ⟨.standard, p⟩) (past ++ [exit]) b).recordAt id =
      .ok (some r'))
    (hout : r'.value ≠ .canceled) :
    ∃ seen, exit.checkOf id r = some seen ∧ r'.Alike (.first seen.state seen.timestamp) ∧
      ∀ (later : List TrackerCommand) (rk : String) (fresh : Backend),
        fresh.recordAt id = .ok none → ∃ x y,
          (Action.runAll (TrackerCommand.run ⟨.standard, p⟩) (past ++ exit :: later) b).recordAt id =
              .ok (some x) ∧
            (Action.runAll (TrackerCommand.run ⟨.standard, p⟩) (.process id rk seen :: later)
              fresh).recordAt id = .ok (some y) ∧
            x.Alike y := by
  have hpast := recordAt_runAll (t := ⟨.standard, p⟩) past hb
  rw [hr] at hpast
  have hfold := (Except.ok.inj hpast).symm
  have hexit := recordAt_run (t := ⟨.standard, p⟩) hr exit
  have hrun : ((exit.run ⟨.standard, p⟩).runOn
      (Action.runAll (TrackerCommand.run ⟨.standard, p⟩) past b)).2.recordAt id = .ok (some r') := by
    rw [Action.runAll, List.foldl_append] at hr'
    exact hr'
  rw [hrun] at hexit
  have hstep := (Except.ok.inj hexit).symm
  have hcoherent : r.Coherent p := coherent_foldl (o := none) id (by rintro _ ⟨⟩) past r hfold
  obtain ⟨seen, hseen, halike⟩ := alike_of_exit hv hstep hout
  refine ⟨seen, hseen, halike, fun later rk fresh hfresh => ?_⟩
  have hcoherent' : r'.Coherent p :=
    coherent_renewFor (o := some r) id (by rintro _ ⟨⟩; exact hcoherent) exit r' hstep
  obtain ⟨x, y, hx, hy, hxy⟩ := alike_foldl id (halike.withKeys r'.routingKey (some rk)) hcoherent' later
  refine ⟨x, y, ?_, ?_, hxy⟩
  · rw [recordAt_runAll _ hb, List.foldl_append, hfold, List.foldl_cons, hstep]
    exact congrArg _ hx
  · have hfirst : (⟨.standard, p⟩ : Tracker).renewFor id none (.process id rk seen) =
        some { StatusRecord.first seen.state seen.timestamp with routingKey := some rk } := if_pos rfl
    rw [recordAt_runAll _ hfresh, List.foldl_cons, hfirst]
    exact congrArg _ hy

/-- A quick recovery and a second alert, which is canceled. -/
def canceledHost : List TrackerCommand :=
  [hostCheck 2 1000, hostCheck 0 1100, hostCheck 2 1150, .cancel "/host" (Instant.latest.nearest 1200)]

/-- The host is still in alert when the next check restores it. -/
def restoringCheck : TrackerCommand := hostCheck 2 1300

/-- What the record of the host says before the check: two oscillations. -/
def canceledRecord : StatusRecord :=
  { StatusRecord.first (CheckState.ok.nearest 2) (Instant.latest.nearest 1200) with
    value := .canceled
    lastStateChange := Instant.latest.nearest 1150
    pendingTime := none
    flappingTimes := [Instant.latest.nearest 1100, Instant.latest.nearest 1150]
    routingKey := some "h" }

/-- And after it: the state did not change then, so the last change is the one of before. -/
def restoredRecord : StatusRecord :=
  { StatusRecord.first (CheckState.ok.nearest 2) (Instant.latest.nearest 1300) with
    lastStateChange := Instant.latest.nearest 1150
    routingKey := some "h" }

theorem canceled_forgets_canceledHost :
    (Action.runAll (TrackerCommand.run ⟨.standard, .standard⟩) canceledHost
        (Backend.memory .empty)).recordAt "/host" = .ok (some canceledRecord) ∧
      (Action.runAll (TrackerCommand.run ⟨.standard, .standard⟩) (canceledHost ++ [restoringCheck])
        (Backend.memory .empty)).recordAt "/host" = .ok (some restoredRecord) ∧
      ∃ seen, restoringCheck.checkOf "/host" canceledRecord = some seen ∧
        restoredRecord.Alike (.first seen.state seen.timestamp) ∧
        ∀ (later : List TrackerCommand) (rk : String) (fresh : Backend),
          fresh.recordAt "/host" = .ok none → ∃ x y,
            (Action.runAll (TrackerCommand.run ⟨.standard, .standard⟩)
              (canceledHost ++ restoringCheck :: later) (Backend.memory .empty)).recordAt "/host" =
                .ok (some x) ∧
              (Action.runAll (TrackerCommand.run ⟨.standard, .standard⟩)
                (.process "/host" rk seen :: later) fresh).recordAt "/host" = .ok (some y) ∧
              x.Alike y := by
  have hbefore : (Action.runAll (TrackerCommand.run ⟨.standard, .standard⟩) canceledHost
      (Backend.memory .empty)).recordAt "/host" = .ok (some canceledRecord) := by decide +kernel
  have hafter : (Action.runAll (TrackerCommand.run ⟨.standard, .standard⟩)
      (canceledHost ++ [restoringCheck]) (Backend.memory .empty)).recordAt "/host" =
        .ok (some restoredRecord) := by decide +kernel
  exact ⟨hbefore, hafter,
    canceled_forgets .standard "/host" canceledHost restoringCheck rfl hbefore rfl hafter (by decide)⟩

end Tracker

end AlertStatus
