import AlertStatus.Proofs.Status.Oscillation
import AlertStatus.Proofs.Status.Renewal

/-!
# Checks in the order of their times

A check that is older than the record is ignored, so checks are applied in the order of their times as
long as the time of the record does not go back. Checks and sweeps see to that: a check moves the record
on to its own time, and a sweep leaves it where it is.

An operator may set it back. A cancellation and its lifting date the record at the time that comes with
them, which may be any, and from there on older checks count again. `ignored_or_setBack` says that this is
the only way: whatever else happens in between, a check is not applied after a later one.
-/

set_option autoImplicit false

namespace AlertStatus
namespace Tracker

variable {t : Tracker} {id : String} {o : Option StatusRecord} {r r' : StatusRecord} {s : SessionStore}
  {rk : String} {c : Check} {last : Instant}

/-! ## 1. Applying a check -/

/-- The check goes through, and the record is not later than it, so that it is computed anew. A check
that is stale goes through as well, and leaves the record. -/
def Applied (t : Tracker) (id rk : String) (c : Check) (s : SessionStore) : Prop :=
  (((TrackerCommand.process id rk c).run t).runOn s).1.isOk = true ∧
    ∀ r, Holds id (some r) s → r.timestamp ≤ c.timestamp

theorem applied_of_unknown (hs : s.store.recordAt id = .ok none)
    (hok : (((TrackerCommand.process id rk c).run t).runOn s).1.isOk = true) : Applied t id rk c s :=
  ⟨hok, fun _ hr => nomatch hs.symm.trans hr⟩

/-- A check that goes through on a store without faults has found its rule. -/
theorem advance_of_isOk {b : Backend} (hr : b.recordAt id = .ok (some r))
    (hc : r.timestamp ≤ c.timestamp)
    (hok : (((TrackerCommand.process id rk c).run t).runOn b).1.isOk = true) :
    ∃ r', t.advance r c = .ok r' := by
  have hcurrent : ¬ c.timestamp < r.timestamp := Int.not_lt.mpr hc
  cases hr' : t.advance r c with
  | ok r' => exact ⟨r', rfl⟩
  | error e =>
    have hfailed : (t.process id rk c).runOn b = (.error e, b) := by
      rw [process, Action.runOn_bind, Backend.runOn_trackerGet_of_ok hr]
      dsimp only
      rw [if_neg hcurrent, Action.runOn_bind, Action.runOn_ofExcept, hr']
    rw [TrackerCommand.run, Action.runOn_bind, hfailed] at hok
    exact Bool.noConfusion hok

theorem timestamp_of_advance (h : t.advance r c = .ok r') : r'.timestamp = c.timestamp := by
  unfold advance at h
  split at h
  · cases h
  · cases h
    rfl

/-- **A check that is applied dates the record.** -/
theorem Applied.timestamp (h : Applied t id rk c s) (hs : Holds id o s) :
    ∃ r, Holds id (some r) (((TrackerCommand.process id rk c).run t).runOn s).2 ∧
      r.timestamp = c.timestamp := by
  obtain ⟨hok, hcurrent⟩ := h
  have hholds := holds_of_check hs hok
  cases o with
  | none =>
    have hfirst : t.renewFor id none (.process id rk c) =
        some { StatusRecord.first c.state c.timestamp with routingKey := some rk } := if_pos rfl
    rw [hfirst] at hholds
    exact ⟨_, hholds, rfl⟩
  | some r =>
    have hc : r.timestamp ≤ c.timestamp := hcurrent r hs
    obtain ⟨r', hr'⟩ := advance_of_isOk hs hc (runOn_check hok).1
    have htime : r'.timestamp = c.timestamp := timestamp_of_advance hr'
    rw [renewFor_of_advance hc hr'] at hholds
    exact ⟨_, hholds, htime⟩

/-! ## 2. The time of the record -/

/-- The command cancels the entity, or lifts a cancellation of it, at a time that is not later than
`last`. Both commands have to succeed; lifting leaves the time of an entity that is not canceled. -/
inductive SetsBack (t : Tracker) (id : String) (last : Instant) (s : SessionStore) :
    TrackerCommand → Prop where
  | cancel {time : Instant} (htime : time ≤ last)
      (hok : (((TrackerCommand.cancel id time).run t).runOn s).1.isOk = true) :
      SetsBack t id last s (.cancel id time)
  | uncancel {time : Instant} {r : StatusRecord} (htime : time ≤ last)
      (hok : (((TrackerCommand.uncancel id time).run t).runOn s).1.isOk = true)
      (hr : Holds id (some r) s) (hv : r.value = .canceled) :
      SetsBack t id last s (.uncancel id time)

theorem timestamp_resolve (r : StatusRecord) (p : Policy) (now : Instant) :
    (r.resolve p now).timestamp = r.timestamp := by
  unfold StatusRecord.resolve
  dsimp only
  split
  · exact StatusRecord.settle_timestamp
  · split
    · rfl
    · exact StatusRecord.settle_timestamp
  · rfl

/-- **One command** leaves a record that is later than `last` so, unless it sets it back. A check that
is older than the record is refused, so only what operators do may take the time back. -/
theorem later_run (hs : Holds id (some r) s) (hr : last < r.timestamp) (d : TrackerCommand) :
    (∃ r', Holds id (some r') ((d.run t).runOn s).2 ∧ last < r'.timestamp) ∨
      SetsBack t id last s d := by
  rcases holds_run (t := t) d hs with hkept | ⟨hok, r', hr', hmove⟩
  · exact Or.inl ⟨r, hkept, hr⟩
  · cases hmove with
    | next rk hc hnext =>
      refine Or.inl ⟨_, hr', Int.lt_of_lt_of_le hr (Int.le_trans hc ?_)⟩
      exact Int.le_of_eq (congrArg Bounded.val (timestamp_of_advance hnext)).symm
    -- The two remarks are dated by the operator, so each may be early or late.
    | cancel r time =>
      by_cases htime : time ≤ last
      · exact Or.inr (.cancel htime hok)
      · exact Or.inl ⟨_, hr', Int.not_le.mp htime⟩
    | restore time hv =>
      by_cases htime : time ≤ last
      · exact Or.inr (.uncancel htime hok hs hv)
      · exact Or.inl ⟨_, hr', Int.not_le.mp htime⟩
    | resolve =>
      refine Or.inl ⟨_, hr', ?_⟩
      rw [timestamp_resolve]
      exact hr

/-- **A run** does, unless one of its commands sets the record back. The first of those is named with
the commands before it, as it depends on the record that they left whether it does. -/
theorem later_runAll (run : List TrackerCommand) (hs : Holds id (some r) s) (hr : last < r.timestamp) :
    (∃ r', Holds id (some r') (Action.runAll (TrackerCommand.run t) run s) ∧ last < r'.timestamp) ∨
      ∃ earlier d later, run = earlier ++ d :: later ∧
        SetsBack t id last (Action.runAll (TrackerCommand.run t) earlier s) d := by
  induction run generalizing s r with
  | nil => exact Or.inl ⟨r, hs, hr⟩
  | cons d run ih =>
    rcases later_run hs hr d with ⟨r', hs', hr'⟩ | hback
    · refine (ih hs' hr').imp_right ?_
      rintro ⟨earlier, e, later, rfl, hback⟩
      exact ⟨d :: earlier, e, later, rfl, hback⟩
    · exact Or.inr ⟨[], d, run, rfl, hback⟩

/-! ## 3. Out of order -/

/-- A check that is older than the record is not applied and leaves it. -/
theorem ignored_of_lt (hs : Holds id (some r) s) (hc : c.timestamp < r.timestamp) (rk : String) :
    ¬ Applied t id rk c s ∧
      Holds id (some r) (((TrackerCommand.process id rk c).run t).runOn s).2 := by
  refine ⟨fun h => Int.not_le.mpr hc (h.2 r hs), ?_⟩
  rcases holds_run (t := t) (.process id rk c) hs with hkept | ⟨-, r', -, hmove⟩
  · exact hkept
  · cases hmove with
    | next _ hle => exact absurd hle (Int.not_le.mpr hc)

/-- **Checks are applied in the order of their times.** A check was applied to an entity (`happlied`),
then the tracker ran commands of any kind, at any times and behind any plan of faults, and now comes a
check that is older than the first one (`hlate`). It is not applied and leaves the record of the entity
as it is, unless in between the entity was canceled, or a cancellation of it lifted, at a time that is
not later than that check.

Of the store it is asked only that the record of the entity, if there is one, can be read (`hs`). The
record may be any, coherent or not, and so may the table and the thresholds. -/
theorem ignored_or_setBack (t : Tracker) (id : String) (s : SessionStore)
    (hs : s.store.recordAt id = .ok o) (rk rk' : String) (c c' : Check)
    (happlied : Applied t id rk c s) (hlate : c'.timestamp < c.timestamp)
    (between : List TrackerCommand) :
    let s' := Action.runAll (TrackerCommand.run t) (.process id rk c :: between) s
    (¬ Applied t id rk' c' s' ∧
      (((TrackerCommand.process id rk' c').run t).runOn s').2.store.recordAt id =
        s'.store.recordAt id) ∨
    ∃ earlier d later, between = earlier ++ d :: later ∧ SetsBack t id c'.timestamp
      (Action.runAll (TrackerCommand.run t) (.process id rk c :: earlier) s) d := by
  intro s'
  obtain ⟨r, hr, htime⟩ := happlied.timestamp hs
  rw [← htime] at hlate
  refine (later_runAll between hr hlate).imp_left ?_
  rintro ⟨r', hr', hlater⟩
  obtain ⟨hignored, hleft⟩ := ignored_of_lt (t := t) hr' hlater rk'
  exact ⟨hignored, hleft.trans hr'.symm⟩

/-- An alert of a host. -/
def alert : Check := ⟨CheckState.ok.nearest 2, Instant.latest.nearest 1000⟩

/-- A recovery that was found a second before it. -/
def earlierRecovery : Check := ⟨.ok, Instant.latest.nearest 999⟩

/-- A cancellation that is lifted again, with a sweep far in the future in between. -/
def currentRemarks : List TrackerCommand :=
  [.cancel "/host" (Instant.latest.nearest 1100), .expire "/host" (Instant.latest.nearest 9000),
    .uncancel "/host" (Instant.latest.nearest 1200)]

theorem ignored_or_setBack_currentRemarks :
    let t : Tracker := ⟨.standard, .standard⟩
    let s : SessionStore := FaultyStore.of (Backend.memory .empty)
    s.store.recordAt "/host" = .ok none ∧ Applied t "/host" "h" alert s ∧
      earlierRecovery.timestamp < alert.timestamp ∧
      ¬ Applied t "/host" "h" earlierRecovery
        (Action.runAll (TrackerCommand.run t) (.process "/host" "h" alert :: currentRemarks) s) ∧
      (((TrackerCommand.process "/host" "h" earlierRecovery).run t).runOn
          (Action.runAll (TrackerCommand.run t) (.process "/host" "h" alert :: currentRemarks)
            s)).2.store.recordAt "/host" =
        (Action.runAll (TrackerCommand.run t) (.process "/host" "h" alert :: currentRemarks)
          s).store.recordAt "/host" := by
  intro t s
  have happlied : Applied t "/host" "h" alert s := applied_of_unknown rfl (by decide +kernel)
  refine ⟨rfl, happlied, by decide, ?_⟩
  rcases ignored_or_setBack t "/host" s rfl "h" "h" alert earlierRecovery happlied (by decide)
    currentRemarks with hignored | ⟨earlier, d, later, hsplit, hback⟩
  · exact hignored
  -- Both remarks come with times after the recovery.
  have hd : d ∈ currentRemarks := by
    rw [hsplit]
    exact List.mem_append_right _ List.mem_cons_self
  simp only [currentRemarks, List.mem_cons, List.not_mem_nil, or_false] at hd
  rcases hd with rfl | rfl | rfl
  · cases hback with
    | cancel htime => exact absurd htime (by decide)
  · cases hback
  · cases hback with
    | uncancel htime => exact absurd htime (by decide)

/-- What is recorded of the host after the alert and a cancellation that is dated back. -/
def backdatedRecord : StatusRecord :=
  { StatusRecord.first (CheckState.ok.nearest 2) (Instant.latest.nearest 1000) with
    value := .canceled
    timestamp := Instant.latest.nearest 500
    pendingTime := none
    routingKey := some "h" }

/-- After a cancellation that is dated back the recovery before the alert is applied. -/
theorem applied_after_later_check :
    ¬ ∀ (t : Tracker) (id : String) (s : SessionStore) (rk rk' : String) (c c' : Check)
        (between : List TrackerCommand), s.store.recordAt id = .ok none → Applied t id rk c s →
      c'.timestamp < c.timestamp →
      ¬ Applied t id rk' c' (Action.runAll (TrackerCommand.run t) (.process id rk c :: between) s) := by
  intro h
  have hrecord : (Action.runAll (TrackerCommand.run ⟨.standard, .standard⟩)
      [.process "/host" "h" alert, .cancel "/host" (Instant.latest.nearest 500)]
      (FaultyStore.of (Backend.memory .empty))).store.recordAt "/host" = .ok (some backdatedRecord) := by
    decide +kernel
  refine h ⟨.standard, .standard⟩ "/host" (FaultyStore.of (Backend.memory .empty)) "h" "h" alert
    earlierRecovery [.cancel "/host" (Instant.latest.nearest 500)] rfl
    (applied_of_unknown rfl (by decide +kernel)) (by decide) ⟨by decide +kernel, fun r hr => ?_⟩
  obtain rfl : backdatedRecord = r := Option.some.inj (Except.ok.inj (hrecord.symm.trans hr))
  decide

end Tracker
end AlertStatus
