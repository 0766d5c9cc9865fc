import AlertStatus.Proofs.Data.Ensures
import AlertStatus.Proofs.Store.Faults
import AlertStatus.Session

/-!
# What one command of the tracker does to a record

Every operation of the tracker reads the record of one entity, and perhaps writes a new one. So seen from
an entity, a command leaves the record as it was, or it succeeds and has made one of five moves (`Move`).
`holds_run` says this for every command behind every plan of faults: a fault strikes before the store is
touched, and each operation writes at the very end, so a command that fails has written nothing.

Invariants of records are then shown for the moves, without the store.
-/

set_option autoImplicit false

namespace AlertStatus
namespace Tracker

/-! ## 1. Moves -/

/-- The ways in which a command makes a new record for the entity `id`. The first one is for an entity
without a record. -/
inductive Move (t : Tracker) (id : String) : TrackerCommand → Option StatusRecord → StatusRecord → Prop
  where
  | first (rk : String) (c : Check) :
      Move t id (.process id rk c) none
        { StatusRecord.first c.state c.timestamp with routingKey := some rk }
  | next {r r' : StatusRecord} (rk : String) {c : Check} (hc : r.timestamp ≤ c.timestamp)
      (hr : t.advance r c = .ok r') :
      Move t id (.process id rk c) (some r) { r' with routingKey := some rk }
  | cancel (r : StatusRecord) (time : Instant) :
      Move t id (.cancel id time) (some r) (canceled r time)
  | restore {r : StatusRecord} (time : Instant) (hv : r.value = .canceled) :
      Move t id (.uncancel id time) (some r) (restored r time)
  | resolve {r : StatusRecord} {now : Instant}
      (he : r.isExpired now t.policy.stealthyShow t.policy.flappingTime = true) :
      Move t id (.expire id now) (some r) (r.resolve t.policy now)

/-- What the look-up of the entity gives, behind the plan of faults. -/
def Holds (id : String) (o : Option StatusRecord) (s : SessionStore) : Prop :=
  s.store.recordAt id = .ok o

/-- The action leaves the record of the entity, or it succeeds and the record is a new one with `R`. So
an action that fails has left the record, which is what invariants of runs with faults need. -/
def Leaves {ε α : Type} (x : Action SessionStore ε α) (id : String) (o : Option StatusRecord)
    (R : StatusRecord → Prop) : Prop :=
  ∀ s, Holds id o s → Holds id o (x.runOn s).2 ∨
    (x.runOn s).1.isOk = true ∧ ∃ r, Holds id (some r) (x.runOn s).2 ∧ R r

section Combinators

variable {ε δ α β : Type} {x : Action SessionStore ε α} {id : String} {o : Option StatusRecord}
  {P : α → Prop} {R S : StatusRecord → Prop}

theorem Leaves.of_ensures (h : x.Ensures (Holds id o) P) : Leaves x id o R :=
  fun s hs => Or.inl (h s hs).1

theorem Leaves.mono (h : Leaves x id o R) (hRS : ∀ r, R r → S r) : Leaves x id o S := by
  intro s hs
  rcases h s hs with h | ⟨hok, r, hr, hR⟩
  · exact Or.inl h
  · exact Or.inr ⟨hok, r, hr, hRS r hR⟩

/-- Reading first does not count: only what follows can write. -/
theorem Leaves.bind_look {f : α → Action SessionStore ε β} (hx : x.Ensures (Holds id o) P)
    (hf : ∀ a, P a → Leaves (f a) id o R) : Leaves (x >>= f) id o R := by
  intro s hs
  obtain ⟨hI, hP⟩ := hx s hs
  rw [Action.runOn_bind]
  generalize x.runOn s = out at hI hP
  obtain ⟨r, s'⟩ := out
  cases r with
  | error e => exact Or.inl hI
  | ok a => exact hf a (hP a rfl) s' hI

/-- After the write only a value is given. -/
theorem Leaves.bind_pure (h : Leaves x id o R) (f : α → β) :
    Leaves (x >>= fun a => pure (f a)) id o R := by
  intro s hs
  have hx := h s hs
  rw [Action.runOn_bind]
  generalize x.runOn s = out at hx
  obtain ⟨r, s'⟩ := out
  cases r with
  | error e => exact hx.imp_right fun h => nomatch h.1
  | ok a => exact hx

theorem Leaves.rename (h : Leaves x id o R) (f : ε → δ) : Leaves (x.rename f) id o R := by
  intro s hs
  have hx := h s hs
  rw [Action.runOn_rename]
  generalize x.runOn s = out at hx
  obtain ⟨r, s'⟩ := out
  cases r with
  | error e => exact hx.imp_right fun h => nomatch h.1
  | ok a => exact hx

end Combinators

/-! ## 2. Reading and writing -/

variable {t : Tracker} {id : String} {o : Option StatusRecord}

theorem ensures_getStatus (entity : String) :
    (getStatus entity : Action SessionStore StatusError _).Ensures (Holds id o)
      fun o' => entity = id → o' = o := by
  refine Action.Ensures.rename
    (FaultyStore.ensures_guarded (I := fun b : Backend => b.recordAt id = .ok o) ?_ _ _) _
  intro b hb
  rw [Backend.runOn_getStatus]
  refine ⟨hb, ?_⟩
  rintro o' ho' rfl
  rw [hb] at ho'
  exact (Except.ok.inj ho').symm

theorem ensures_known (entity : String) :
    (known entity : Action SessionStore StatusError _).Ensures (Holds id o)
      fun r => entity = id → o = some r := by
  refine Action.Ensures.bind (ensures_getStatus entity) fun o' ho' => ?_
  cases o' with
  | none => exact Action.Ensures.fail _ _
  | some r => exact Action.Ensures.pure fun hid => (ho' hid).symm

theorem leaves_putStatus (entity : String) (r : StatusRecord) :
    Leaves (putStatus entity r) id o fun r' => entity = id ∧ r' = r := by
  refine Leaves.rename ?_ _
  intro s hs
  show _ ∨ _
  cases hstrike : Fault.strike .putStatus entity s.faults with
  | some struck =>
    have hrun : (Store.putStatus entity r).runOn s = _ := FaultyStore.guarded_of_strike hstrike
    rw [hrun]
    exact Or.inl hs
  | none =>
    have hrun : (Store.putStatus entity r).runOn s = _ := FaultyStore.guarded_of_pass hstrike
    rw [hrun]
    unfold Holds
    dsimp only
    rw [Backend.recordAt_putStatus, Backend.runOn_putStatus]
    by_cases hid : id = entity
    · rw [if_pos hid]
      exact Or.inr ⟨rfl, r, rfl, hid.symm, rfl⟩
    · rw [if_neg hid]
      exact Or.inl hs

/-! ## 3. The operations -/

theorem leaves_keep (entity rk : String) (r : StatusRecord) :
    Leaves (process.keep entity rk r) id o
      fun r' => entity = id ∧ r' = { r with routingKey := some rk } :=
  (leaves_putStatus entity _).bind_pure _

/-- A stale check is ignored, and so is one for which the table has no rule. -/
theorem leaves_process (entity rk : String) (c : Check) :
    Leaves (t.process entity rk c) id o (Move t id (.process entity rk c) o) := by
  refine Leaves.bind_look (ensures_getStatus entity) fun o' ho' => ?_
  cases o' with
  | none =>
    refine (leaves_keep entity rk _).mono ?_
    rintro _ ⟨rfl, rfl⟩
    rw [← ho' rfl]
    exact .first rk c
  | some r =>
    show Leaves (if c.timestamp < r.timestamp then _ else _) id o _
    split
    · exact Leaves.of_ensures (Action.Ensures.pure (Q := fun _ => True) trivial)
    · rename_i hstale
      refine Leaves.bind_look (P := fun r' => t.advance r c = .ok r')
        (Action.Ensures.ofExcept fun _ h => h) fun r' hr' => ?_
      refine (leaves_keep entity rk r').mono ?_
      rintro _ ⟨rfl, rfl⟩
      rw [← ho' rfl]
      exact .next rk (Int.not_lt.mp hstale) hr'

theorem leaves_cancel (entity : String) (time : Instant) :
    Leaves (cancel entity time) id o (Move t id (.cancel entity time) o) := by
  refine Leaves.bind_look (ensures_known entity) fun r hr => ?_
  refine ((leaves_putStatus entity _).bind_pure _).mono ?_
  rintro _ ⟨rfl, rfl⟩
  rw [hr rfl]
  exact .cancel r time

theorem leaves_uncancel (entity : String) (time : Instant) :
    Leaves (uncancel entity time) id o (Move t id (.uncancel entity time) o) := by
  refine Leaves.bind_look (ensures_known entity) fun r hr => ?_
  show Leaves (if r.value = .canceled then _ else _) id o _
  split
  · rename_i hv
    refine ((leaves_putStatus entity _).bind_pure _).mono ?_
    rintro _ ⟨rfl, rfl⟩
    rw [hr rfl]
    exact .restore time hv
  · exact Leaves.of_ensures (Action.Ensures.pure (Q := fun _ => True) trivial)

theorem leaves_expire (entity : String) (now : Instant) :
    Leaves (t.expire entity now) id o (Move t id (.expire entity now) o) := by
  refine Leaves.bind_look (ensures_getStatus entity) fun o' ho' => ?_
  cases o' with
  | none => exact Leaves.of_ensures (Action.Ensures.pure (Q := fun _ => True) trivial)
  | some r =>
    show Leaves (if _ ∧ r.resolve t.policy now ≠ r then _ else _) id o _
    split
    · rename_i he
      refine ((leaves_putStatus entity _).bind_pure _).mono ?_
      rintro _ ⟨rfl, rfl⟩
      rw [← ho' rfl]
      exact .resolve he.1
    · exact Leaves.of_ensures (Action.Ensures.pure (Q := fun _ => True) trivial)

theorem ensures_findExpired (now : Instant) :
    (t.findExpired now : Action SessionStore StatusError _).Ensures (Holds id o) fun _ => True := by
  refine Action.Ensures.rename
    (FaultyStore.ensures_guarded (I := fun b : Backend => b.recordAt id = .ok o) ?_ _ _) _
  intro b hb
  refine ⟨?_, fun _ _ => trivial⟩
  cases b <;> exact hb

/-! ## 4. Commands -/

theorem leaves_run (c : TrackerCommand) : Leaves (c.run t) id o (Move t id c o) := by
  cases c with
  | process entity rk c => exact (leaves_process entity rk c).bind_pure _
  | cancel entity time => exact (leaves_cancel entity time).bind_pure _
  | uncancel entity time => exact (leaves_uncancel entity time).bind_pure _
  | expire entity now => exact (leaves_expire entity now).bind_pure _
  | findExpired now =>
    exact Leaves.bind_pure (Leaves.of_ensures (ensures_findExpired now)) _
  | status entity => exact Leaves.bind_pure (Leaves.of_ensures (ensures_getStatus entity)) _
  | settings => exact Leaves.of_ensures (Action.Ensures.pure (Q := fun _ => True) trivial)

/-- **A command leaves the record of an entity, or it succeeds and makes a move.** -/
theorem holds_run (c : TrackerCommand) {s : SessionStore} (hs : Holds id o s) :
    Holds id o ((c.run t).runOn s).2 ∨ ((c.run t).runOn s).1.isOk = true ∧
      ∃ r, Holds id (some r) ((c.run t).runOn s).2 ∧ Move t id c o r :=
  leaves_run c s hs

end Tracker
end AlertStatus
