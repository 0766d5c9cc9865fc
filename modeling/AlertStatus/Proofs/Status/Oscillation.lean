import AlertStatus.Proofs.Status.Runs

/-!
# Oscillations come from checks

The times that a record keeps as oscillations are times of checks that found another state than the
recorded one, in the order in which they were applied, each check counted once. So an entity flaps only
after that many such checks within the window.

Four of the five rules compare states before they count. The rule of an entity that is off does not: it
counts every alert, and is right because the state of such an entity is healthy. That is a matter of
coherence, which is therefore carried along.
-/

set_option autoImplicit false

namespace AlertStatus
namespace StatusRecord

variable {p : Policy} {r : StatusRecord} {c : Check} {now : Instant}

/-! ## 1. One step -/

/-- The time of a check that finds another state than the recorded one. -/
def turn (r : StatusRecord) (c : Check) : List Instant :=
  if c.state = r.state then [] else [c.timestamp]

theorem turn_of_ne (h : c.state ≠ r.state) : r.turn c = [c.timestamp] := if_neg h

theorem noteOscillation_flappingTimes :
    (r.noteOscillation c).flappingTimes = r.flappingTimes ++ r.turn c := by
  unfold noteOscillation turn
  split <;> simp

theorem observe_sublist :
    (r.observe p c).flappingTimes.Sublist (r.flappingTimes ++ r.turn c) := by
  rw [observe, prune_flappingTimes, noteOscillation_flappingTimes]
  exact List.filter_sublist

@[simp] theorem processOngoing_flappingTimes :
    (r.processOngoing p c).flappingTimes = (r.observe p c).flappingTimes := by
  unfold processOngoing
  dsimp only
  split
  · rfl
  split
  · split <;> rfl
  · split <;> rfl

@[simp] theorem processStealthy_flappingTimes :
    (r.processStealthy p c).flappingTimes = (r.observe p c).flappingTimes := by
  unfold processStealthy
  dsimp only
  split
  · simp
  · split <;> rfl

@[simp] theorem processFlapping_flappingTimes :
    (r.processFlapping p c).flappingTimes = (r.observe p c).flappingTimes := by
  unfold processFlapping
  dsimp only
  split <;> simp

/-- An alert of an entity that is off starts the count anew, at a change of state. -/
theorem Coherent.processOff_sublist (h : r.Coherent p) (hv : r.value = .off) :
    (r.processOff c).flappingTimes.Sublist (r.flappingTimes ++ r.turn c) := by
  obtain ⟨hstate, -, -⟩ := h.off hv
  unfold processOff
  split
  · simp
  · rename_i hc
    rw [turn_of_ne (by simpa [hstate] using hc)]
    exact List.sublist_append_right _ _

theorem processCanceled_sublist :
    (r.processCanceled p c).flappingTimes.Sublist (r.flappingTimes ++ r.turn c) := by
  unfold processCanceled
  split
  · simp
  · simp

/-- **A check adds to the oscillations at most its own time**, and only when it changes the state. The
record has to be coherent for the rule of an entity that is off, which counts without comparing
states. -/
theorem Coherent.next_sublist (h : r.Coherent p) :
    (r.next p c).flappingTimes.Sublist (r.flappingTimes ++ r.turn c) := by
  unfold StatusRecord.next Status.applyRule
  rw [stamp_flappingTimes]
  refine List.filter_sublist.trans ?_
  cases hv : r.value with
  | off => exact h.processOff_sublist hv
  | ongoing => simpa using observe_sublist
  | stealthy => simpa using observe_sublist
  | flapping => simpa using observe_sublist
  | canceled => exact processCanceled_sublist

theorem resolve_sublist : (r.resolve p now).flappingTimes.Sublist r.flappingTimes := by
  unfold resolve
  dsimp only
  split
  · simp
  · split
    · exact List.filter_sublist
    · rw [settle_flappingTimes]
      exact List.filter_sublist
  · exact List.Sublist.refl _

end StatusRecord

namespace Tracker

variable {p : Policy} {id : String} {h : List Instant}

/-! ## 2. The changes of a run -/

/-- The time of the check that a command applies to the entity `id`, when it changes the state. A check
is applied when it is not the first one and not older than the record, and the command succeeds. -/
def change (t : Tracker) (id : String) (c : TrackerCommand) (s : SessionStore) : List Instant :=
  match c, s.store.recordAt id with
  | .process entity _ check, .ok (some r) =>
    if entity = id ∧ ((c.run t).runOn s).1.isOk = true ∧ r.timestamp ≤ check.timestamp then
      r.turn check
    else []
  | _, _ => []

/-- The times of the checks of a run that change the state of the entity, in order. -/
def changes (t : Tracker) (id : String) : List TrackerCommand → SessionStore → List Instant
  | [], _ => []
  | c :: run, s => change t id c s ++ changes t id run ((c.run t).runOn s).2

/-- The record of the entity is coherent and its oscillations are among the times `h`. This is the
invariant of a run, with `h` the changes of state up to there. -/
def Sourced (p : Policy) (id : String) (h : List Instant) (s : SessionStore) : Prop :=
  ∃ o, Holds id o s ∧ ∀ r, o = some r → r.Coherent p ∧ r.flappingTimes.Sublist h

theorem change_of_applied {t : Tracker} {rk : String} {c : Check} {s : SessionStore}
    {r : StatusRecord} (hs : Holds id (some r) s)
    (hok : (((TrackerCommand.process id rk c).run t).runOn s).1.isOk = true)
    (hc : r.timestamp ≤ c.timestamp) : change t id (.process id rk c) s = r.turn c := by
  have hrecord : s.store.recordAt id = .ok (some r) := hs
  unfold change
  rw [hrecord]
  exact if_pos ⟨rfl, hok, hc⟩

/-- A move keeps the oscillations among the changes. The other moves than a check add none. -/
theorem Move.sublist {c : TrackerCommand} {o : Option StatusRecord} {r' : StatusRecord}
    {s : SessionStore} (hm : Move ⟨.standard, p⟩ id c o r') (hs : Holds id o s)
    (hok : ((c.run ⟨.standard, p⟩).runOn s).1.isOk = true)
    (ho : ∀ r, o = some r → r.Coherent p ∧ r.flappingTimes.Sublist h) :
    r'.flappingTimes.Sublist (h ++ change ⟨.standard, p⟩ id c s) := by
  cases hm with
  | first => exact List.nil_sublist _
  | @next r _ rk c hc hr =>
    rw [advance_standard] at hr
    cases hr
    obtain ⟨hcoh, hsub⟩ := ho r rfl
    rw [change_of_applied hs hok hc]
    exact hcoh.next_sublist.trans (hsub.append (List.Sublist.refl _))
  | cancel r => exact (ho r rfl).2.trans (List.sublist_append_left _ _)
  | restore => simp [restored]
  | @resolve r now _ =>
    exact StatusRecord.resolve_sublist.trans ((ho r rfl).2.trans (List.sublist_append_left _ _))

/-- **One command** keeps the oscillations among the changes. -/
theorem Sourced.run {s : SessionStore} (hs : Sourced p id h s) (c : TrackerCommand) :
    Sourced p id (h ++ change ⟨.standard, p⟩ id c s) ((c.run ⟨.standard, p⟩).runOn s).2 := by
  obtain ⟨o, hholds, ho⟩ := hs
  rcases holds_run (t := ⟨.standard, p⟩) c hholds with hkept | ⟨hok, r', hr', hmove⟩
  · refine ⟨o, hkept, fun r hr => ?_⟩
    obtain ⟨hcoh, hsub⟩ := ho r hr
    exact ⟨hcoh, hsub.trans (List.sublist_append_left _ _)⟩
  · refine ⟨some r', hr', ?_⟩
    rintro r ⟨⟩
    exact ⟨hmove.coherent fun r hr => (ho r hr).1, hmove.sublist hholds hok ho⟩

theorem Sourced.runAll (run : List TrackerCommand) {s : SessionStore} (hs : Sourced p id h s) :
    Sourced p id (h ++ changes ⟨.standard, p⟩ id run s)
      (Action.runAll (TrackerCommand.run ⟨.standard, p⟩) run s) := by
  induction run generalizing h s with
  | nil => simpa [changes, Action.runAll] using hs
  | cons c run ih =>
    have hrest := ih (hs.run c)
    rw [List.append_assoc] at hrest
    exact hrest

/-! ## 3. Flapping -/

/-- **The oscillations of a record are a subsequence of the changes of state that the run brought, and
an entity that flaps had enough of them within the window that ends at the time of its record.** The
commands come in any order and at any times, behind any plan of faults.

The entity has no record at first (`hs`), as in `coherent_of_run`: the oscillations of a record that
was there before would come from no check of the run. What counts as a change is said by `change`,
which leaves out the first check of the entity, those that are stale, and those that fail. -/
theorem oscillations_of_run (p : Policy) (id : String) (run : List TrackerCommand) (s : SessionStore)
    (hs : s.store.recordAt id = .ok none) :
    ∃ o, (Action.runAll (TrackerCommand.run ⟨.standard, p⟩) run s).store.recordAt id = .ok o ∧
      ∀ r, o = some r →
        r.flappingTimes.Sublist (changes ⟨.standard, p⟩ id run s) ∧
          (r.value = .flapping → p.flappingFreq ≤ ((changes ⟨.standard, p⟩ id run s).filter fun t =>
            t ≤ r.timestamp ∧ r.timestamp.minus t ≤ p.flappingTime).length) := by
  have hfirst : Sourced p id [] s := ⟨none, hs, by simp⟩
  obtain ⟨o, hholds, ho⟩ := hfirst.runAll run
  refine ⟨o, hholds, fun r hr => ?_⟩
  obtain ⟨hcoh, hsub⟩ := ho r hr
  refine ⟨hsub, fun hv => ?_⟩
  -- All oscillations of a flapping record lie in the window, so filtering keeps them.
  have hkept : r.flappingTimes.filter
      (fun t => t ≤ r.timestamp ∧ r.timestamp.minus t ≤ p.flappingTime) = r.flappingTimes := by
    refine List.filter_eq_self.mpr fun t ht => ?_
    simpa using hcoh.recent (by simp [hv]) t ht
  calc p.flappingFreq ≤ r.flappingTimes.length := (hcoh.flapping hv).2.2
    _ = _ := by rw [hkept]
    _ ≤ _ := (hsub.filter _).length_le

/-- A check of one host. -/
def hostCheck (state seconds : Int) : TrackerCommand :=
  .process "/host" "h" ⟨CheckState.ok.nearest state, Instant.latest.nearest seconds⟩

/-- The state changes at each check but the stale last one, and a cancellation in between makes the
first change count no longer. -/
def unsteadyHost : List TrackerCommand :=
  [hostCheck 2 1000, hostCheck 0 1010, .cancel "/host" (Instant.latest.nearest 1020),
    .uncancel "/host" (Instant.latest.nearest 1030), hostCheck 1 1040, hostCheck 3 1050,
    hostCheck 2 1049]

theorem oscillations_of_run_unsteadyHost :
    (FaultyStore.of (Backend.memory .empty)).store.recordAt "/host" = .ok none ∧
      let p : Policy := { Policy.standard with flappingFreq := 2 }
      let s := FaultyStore.of (Backend.memory .empty)
      ∃ r, (Action.runAll (TrackerCommand.run ⟨.standard, p⟩) unsteadyHost s).store.recordAt "/host" =
          .ok (some r) ∧ r.value = .flapping ∧
        r.flappingTimes.Sublist (changes ⟨.standard, p⟩ "/host" unsteadyHost s) ∧
          p.flappingFreq ≤ ((changes ⟨.standard, p⟩ "/host" unsteadyHost s).filter fun t =>
            t ≤ r.timestamp ∧ r.timestamp.minus t ≤ p.flappingTime).length := by
  refine ⟨rfl, ?_⟩
  intro p s
  have hvalue : ((Action.runAll (TrackerCommand.run ⟨.standard, p⟩) unsteadyHost s).store.recordAt
      "/host").map (Option.map StatusRecord.value) = .ok (some .flapping) := by
    decide +kernel
  obtain ⟨o, ho, hr⟩ := oscillations_of_run p "/host" unsteadyHost s rfl
  rw [ho] at hvalue
  obtain ⟨r, rfl, hv⟩ := Option.map_eq_some_iff.mp (Except.ok.inj hvalue)
  obtain ⟨hsub, hcount⟩ := hr r rfl
  exact ⟨r, ho, hv, hsub, hcount hv⟩

end Tracker
end AlertStatus
