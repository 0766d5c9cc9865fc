import AlertStatus.Proofs.Engine.Failure
import AlertStatus.Proofs.Status.Expiry
import AlertStatus.Proofs.Status.Runs
import AlertStatus.Proofs.Store.Linked

/-!
# The tracker as a function of one record

On a store without faults nothing is left open of what a command does to the record of an entity.
`Tracker.renew` says it for the entity that the command is about, and the record of any other entity
stays (`Backend.recordAt_run`). So a run is seen from an entity as a fold over its commands, whatever
else the store holds: rows of other entities may be unreadable, and events do not matter.
-/

set_option autoImplicit false

namespace AlertStatus

/-- The entity whose record a command may write. -/
def TrackerCommand.entity : TrackerCommand → Option String
  | .process entity _ _ | .cancel entity _ | .uncancel entity _ | .expire entity _ => some entity
  | .findExpired _ | .status _ | .settings => none

namespace Tracker

variable {t : Tracker} {id : String} {o : Option StatusRecord} {b : Backend}

/-! ## 1. The entity that a command is about -/

/-- The record after a check. One that is stale changes nothing, and neither does one for which the
table has no rule. -/
def renewByCheck (t : Tracker) (rk : String) (c : Check) : Option StatusRecord → StatusRecord
  | none => { StatusRecord.first c.state c.timestamp with routingKey := some rk }
  | some r =>
    if c.timestamp < r.timestamp then r
    else
      match t.advance r c with
      | .ok r' => { r' with routingKey := some rk }
      | .error _ => r

/-- The record after a command about the entity. -/
def renew (t : Tracker) (o : Option StatusRecord) : TrackerCommand → Option StatusRecord
  | .process _ rk c => some (t.renewByCheck rk c o)
  | .cancel _ time => o.map fun r => canceled r time
  | .uncancel _ time => o.map fun r => if r.value = .canceled then restored r time else r
  | .expire _ now => o.map fun r => r.swept t.policy now
  | .findExpired _ | .status _ | .settings => o

theorem runOn_known (h : b.recordAt id = .ok o) :
    (known id).runOn b = match o with
      | some r => (.ok r, b)
      | none => (.error (.unknownEntity id), b) := by
  rw [known, Action.runOn_bind, Backend.runOn_trackerGet_of_ok h]
  cases o <;> rfl

theorem recordAt_put (b : Backend) (id : String) (r : StatusRecord) :
    ((Store.putStatus id r).runOn b).2.recordAt id = .ok (some r) := by
  rw [Backend.recordAt_putStatus, if_pos rfl]

theorem recordAt_process (h : b.recordAt id = .ok o) (rk : String) (c : Check) :
    ((t.process id rk c).runOn b).2.recordAt id = .ok (some (t.renewByCheck rk c o)) := by
  rw [process, Action.runOn_bind, Backend.runOn_trackerGet_of_ok h]
  cases o with
  | none =>
    dsimp only
    rw [Backend.runOn_trackerKeep]
    exact recordAt_put _ _ _
  | some r =>
    dsimp only [renewByCheck]
    split
    · exact h
    · rw [Action.runOn_bind, Action.runOn_ofExcept]
      cases t.advance r c with
      | error e => exact h
      | ok r' =>
        dsimp only
        rw [Backend.runOn_trackerKeep]
        exact recordAt_put _ _ _

theorem recordAt_cancel (h : b.recordAt id = .ok o) (time : Instant) :
    ((cancel id time).runOn b).2.recordAt id = .ok (o.map fun r => canceled r time) := by
  rw [cancel, Action.runOn_bind, runOn_known h]
  cases o with
  | none => exact h
  | some r =>
    dsimp only
    rw [Action.runOn_bind, Backend.runOn_trackerPut]
    exact recordAt_put _ _ _

theorem recordAt_uncancel (h : b.recordAt id = .ok o) (time : Instant) :
    ((uncancel id time).runOn b).2.recordAt id =
      .ok (o.map fun r => if r.value = .canceled then restored r time else r) := by
  rw [uncancel, Action.runOn_bind, runOn_known h]
  cases o with
  | none => exact h
  | some r =>
    dsimp only [Option.map_some]
    split
    · rw [Action.runOn_bind, Backend.runOn_trackerPut]
      exact recordAt_put _ _ _
    · exact h

theorem recordAt_expire (h : b.recordAt id = .ok o) (now : Instant) :
    ((t.expire id now).runOn b).2.recordAt id = .ok (o.map fun r => r.swept t.policy now) := by
  rw [expire, Action.runOn_bind, Backend.runOn_trackerGet_of_ok h]
  cases o with
  | none => exact h
  | some r =>
    dsimp only [Option.map_some]
    split
    · rename_i he
      rw [Action.runOn_bind, Backend.runOn_trackerPut, StatusRecord.swept, if_pos he.1]
      exact recordAt_put _ _ _
    · rename_i he
      have hsame : r.swept t.policy now = r := by
        unfold StatusRecord.swept
        split
        · rename_i hexp
          exact Decidable.not_not.mp fun hne => he ⟨hexp, hne⟩
        · rfl
      rw [hsame]
      exact h

/-! ## 2. The other entities -/

/-- The operations on other entities keep the record of this one. -/
theorem linked_others (id : String) (o : Option StatusRecord) :
    Linked (fun b b' : Backend => b = b' ∧ b.recordAt id = .ok o) (· ≠ id) (fun _ => True)
      fun _ => True := by
  have hsame {α : Type} {x : Action Backend StoreError α}
      (hx : ∀ b : Backend, b.SameStatuses (x.runOn b).2) :
      x.Ensures (fun b => b.recordAt id = .ok o) fun _ => True := by
    intro b hb
    refine ⟨?_, fun _ _ => trivial⟩
    show (x.runOn b).2.recordAt id = _
    rw [(hx b).recordAt id]
    exact hb
  refine ⟨?_, ?_, ?_, ?_, ?_, ?_⟩
  · intro j _
    refine (hsame fun b => ?_).matches
    rw [Backend.runOn_getStatus]
    exact .refl b
  · intro j r hj
    refine Action.Ensures.matches fun b hb => ⟨?_, fun _ _ => trivial⟩
    show ((Store.putStatus j r).runOn b).2.recordAt id = _
    rw [Backend.recordAt_putStatus, if_neg (Ne.symm hj)]
    exact hb
  · intro rk _
    refine ((hsame fun b => ?_).matches).weaken fun _ _ _ _ _ _ _ => trivial
    cases b <;> rfl
  · exact fun rk e _ _ => (hsame fun b => Backend.sameStatuses_putEvent b rk e).matches
  · exact fun rk change _ _ => (hsame fun b => Backend.sameStatuses_updateEvent b rk change).matches
  · exact fun rk t e _ _ => (hsame fun b => Backend.sameStatuses_appendLog b (.of rk t e)).matches

/-! ## 3. Commands and runs -/

/-- The record of the entity `id` after any command. -/
def renewFor (t : Tracker) (id : String) (o : Option StatusRecord) (c : TrackerCommand) :
    Option StatusRecord :=
  if c.entity = some id then t.renew o c else o

/-- A command about another entity, or about none, leaves the record. -/
theorem recordAt_run_of_ne {c : TrackerCommand} (hc : c.entity ≠ some id)
    (h : b.recordAt id = .ok o) : ((c.run t).runOn b).2.recordAt id = .ok o := by
  have hlinked := linked_others id o
  have hother {α : Type} {x : Action Backend StatusError α} (f : α → Reply)
      (hx : Action.Matches (fun b b' : Backend => b = b' ∧ b.recordAt id = .ok o) x x
        fun _ => True) : ((do return f (← x)).runOn b).2.recordAt id = .ok o := by
    rw [Action.snd_runOn_map]
    exact (hx.ensures b h).1
  cases c with
  | process entity rk c => exact hother _ (hlinked.process t (fun he => hc (congrArg some he)) rk c)
  | cancel entity time => exact hother _ (hlinked.cancel (fun he => hc (congrArg some he)) time)
  | uncancel entity time => exact hother _ (hlinked.uncancel (fun he => hc (congrArg some he)) time)
  | expire entity now => exact hother _ (hlinked.expire t (fun he => hc (congrArg some he)) now)
  | findExpired now =>
    show (((do return Reply.expired (← t.findExpired now)) :
      Action Backend StatusError Reply).runOn b).2.recordAt id = _
    rw [Action.snd_runOn_map, Backend.snd_runOn_findExpired]
    exact h
  | status entity =>
    show (((do return Reply.record (← getStatus entity)) :
      Action Backend StatusError Reply).runOn b).2.recordAt id = _
    rw [Action.snd_runOn_map, Backend.runOn_trackerGet]
    exact h
  | settings => exact h

/-- **What a command does to the record of an entity** is settled by the record alone. -/
theorem recordAt_run (h : b.recordAt id = .ok o) (c : TrackerCommand) :
    ((c.run t).runOn b).2.recordAt id = .ok (t.renewFor id o c) := by
  unfold renewFor
  split
  · rename_i hc
    cases c with
    | process entity rk c =>
      cases hc
      exact (congrArg (Backend.recordAt · id) (Action.snd_runOn_map _ _ b)).trans (recordAt_process h rk c)
    | cancel entity time =>
      cases hc
      exact (congrArg (Backend.recordAt · id) (Action.snd_runOn_map _ _ b)).trans (recordAt_cancel h time)
    | uncancel entity time =>
      cases hc
      exact (congrArg (Backend.recordAt · id) (Action.snd_runOn_map _ _ b)).trans (recordAt_uncancel h time)
    | expire entity now =>
      cases hc
      exact (congrArg (Backend.recordAt · id) (Action.snd_runOn_map _ _ b)).trans (recordAt_expire h now)
    | findExpired | status | settings => cases hc
  · rename_i hc
    exact recordAt_run_of_ne hc h

theorem recordAt_runAll (cs : List TrackerCommand) (h : b.recordAt id = .ok o) :
    (Action.runAll (TrackerCommand.run t) cs b).recordAt id = .ok (cs.foldl (t.renewFor id) o) := by
  induction cs generalizing b o with
  | nil => exact h
  | cons c cs ih => exact ih (recordAt_run h c)

/-- Under the built-in table a check always leads on. -/
theorem renewByCheck_standard (p : Policy) (rk : String) (c : Check) (r : StatusRecord) :
    (⟨.standard, p⟩ : Tracker).renewByCheck rk c (some r) =
      if c.timestamp < r.timestamp then r else { r.next p c with routingKey := some rk } := by
  show (if c.timestamp < r.timestamp then r else
    match (⟨.standard, p⟩ : Tracker).advance r c with
    | .ok r' => { r' with routingKey := some rk }
    | .error _ => r) = _
  rw [advance_standard]

/-- A check that is not stale leaves what the table makes of the record. -/
theorem renewFor_of_advance {r r' : StatusRecord} {c : Check} (hc : r.timestamp ≤ c.timestamp)
    (hr' : t.advance r c = .ok r') (id rk : String) :
    t.renewFor id (some r) (.process id rk c) = some { r' with routingKey := some rk } := by
  have hown : (TrackerCommand.process id rk c).entity = some id := rfl
  have hcurrent : ¬ c.timestamp < r.timestamp := Int.not_lt.mpr hc
  rw [renewFor, if_pos hown, renew, renewByCheck, if_neg hcurrent, hr']

/-- Under the built-in table it moves the record one step on. -/
theorem renewFor_of_le {p : Policy} {r : StatusRecord} {c : Check} (hc : r.timestamp ≤ c.timestamp)
    (id rk : String) : (⟨.standard, p⟩ : Tracker).renewFor id (some r) (.process id rk c) =
      some { r.next p c with routingKey := some rk } :=
  renewFor_of_advance hc (advance_standard p r c) id rk

/-- **A record that a command leaves is coherent**, if the one before it was (`h`). The table is the
built-in one, since the rules of another one are free to leave anything. -/
theorem coherent_renewFor {p : Policy} (id : String) (h : ∀ r ∈ o, r.Coherent p) (c : TrackerCommand) :
    ∀ r ∈ (⟨.standard, p⟩ : Tracker).renewFor id o c, r.Coherent p := by
  intro r hr
  unfold renewFor at hr
  split at hr
  · cases c with
    | process entity rk c =>
      cases hr
      cases o with
      | none => exact (StatusRecord.coherent_first c.state c.timestamp).withKey _
      | some r =>
        rw [renewByCheck_standard]
        split
        · exact h r rfl
        · rename_i hc
          exact ((h r rfl).next (Int.not_lt.mp hc)).withKey _
    | cancel entity time =>
      obtain ⟨r, ho, rfl⟩ := Option.map_eq_some_iff.mp hr
      exact (h r ho).cancel time
    | uncancel entity time =>
      obtain ⟨r, ho, rfl⟩ := Option.map_eq_some_iff.mp hr
      split
      · exact StatusRecord.coherent_restored r time
      · exact h r ho
    | expire entity now =>
      obtain ⟨r, ho, rfl⟩ := Option.map_eq_some_iff.mp hr
      unfold StatusRecord.swept
      split
      · exact (h r ho).resolve
      · exact h r ho
    | findExpired | status | settings => exact h r hr
  · exact h r hr

theorem coherent_foldl {p : Policy} (id : String) (h : ∀ r ∈ o, r.Coherent p)
    (cs : List TrackerCommand) :
    ∀ r ∈ cs.foldl ((⟨.standard, p⟩ : Tracker).renewFor id) o, r.Coherent p := by
  induction cs generalizing o with
  | nil => exact h
  | cons c cs ih => exact ih (coherent_renewFor id h c)

/-! ## 4. Checks behind a plan of faults -/

/-- A check that goes through goes through without the plan, and does the same. -/
theorem runOn_check {s : SessionStore} {rk : String} {c : Check}
    (hok : (((TrackerCommand.process id rk c).run t).runOn s).1.isOk = true) :
    (((TrackerCommand.process id rk c).run t).runOn s.store).1.isOk = true ∧
      (((TrackerCommand.process id rk c).run t).runOn s).2.store =
        (((TrackerCommand.process id rk c).run t).runOn s.store).2 := by
  have hbehind : FaultyStore.Behind ((TrackerCommand.process id rk c).run t)
      ((TrackerCommand.process id rk c).run t) := (behind_process t id rk c).bind_pure _
  rcases hbehind s with ⟨⟨e, he⟩, -⟩ | hsame
  · rw [he] at hok
    exact Bool.noConfusion hok
  · rw [← hsame]
    exact ⟨hok, rfl⟩

/-- So it makes of the record what it makes of it without the plan. -/
theorem holds_of_check {s : SessionStore} (hs : Holds id o s) {rk : String} {c : Check}
    (hok : (((TrackerCommand.process id rk c).run t).runOn s).1.isOk = true) :
    Holds id (t.renewFor id o (.process id rk c)) (((TrackerCommand.process id rk c).run t).runOn s).2 :=
  (congrArg (Backend.recordAt · id) (runOn_check hok).2).trans (recordAt_run hs _)

end Tracker
end AlertStatus
