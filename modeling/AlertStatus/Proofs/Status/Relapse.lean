import AlertStatus.Proofs.Status.Oscillation
import AlertStatus.Proofs.Status.Renewal

/-!
# Flapping without a change of state

A check that finds the recorded state again is no oscillation, and yet it can be the one that makes an
entity flap. The rule of an ongoing alert does not ask whether the check changed anything: it counts what
the window holds. Nearly every way into an ongoing alert leaves too few oscillations for that (`Calm`).

One does not (`Relapse`). An alert that comes when the stealthy window has elapsed settles the entity, and
the rule looks at the window before it looks at the threshold. If that alert was the oscillation that
reached the threshold, the entity is ongoing with enough oscillations, and it is for the next check to find
them, whatever that check says. A relapse is gone with the next check, so the run of an entity has to be
followed only up to the last check that was applied.
-/

set_option autoImplicit false

namespace AlertStatus
namespace StatusRecord

variable {p : Policy} {r : StatusRecord} {c : Check} {now : Instant}

/-! ## 1. Calm records -/

/-- An alert, or a quick recovery from one, that has not reached the threshold. Of the other statuses
nothing is asked: a flapping record has reached it, and one that is off or canceled starts its count
anew. -/
def Calm (p : Policy) (r : StatusRecord) : Prop :=
  r.value = .ongoing ∨ r.value = .stealthy → r.flappingTimes.length < p.flappingFreq

theorem calm_of_few (h : r.flappingTimes.length < p.flappingFreq) : r.Calm p := fun _ => h

theorem calm_of_value (h : r.value ≠ .ongoing ∧ r.value ≠ .stealthy) : r.Calm p :=
  fun hv => (hv.elim h.1 h.2).elim

theorem few_of_oscillates (h : r.oscillates p = false) : r.flappingTimes.length < p.flappingFreq :=
  Nat.not_le.mp (of_decide_eq_false h)

/-- The stamp only drops oscillations. -/
theorem Calm.stamp (h : r.Calm p) : (r.stamp p c).Calm p := by
  intro hv
  rw [stamp_value] at hv
  rw [stamp_flappingTimes]
  exact Nat.lt_of_le_of_lt (List.length_filter_le _ _) (h hv)

theorem Calm.withKey (h : r.Calm p) (key : Option String) :
    ({ r with routingKey := key } : StatusRecord).Calm p := h

/-- To observe a check that finds the recorded state again is to prune. -/
theorem observe_eq_prune (hc : c.state = r.state) :
    r.observe p c = r.prune c.timestamp p.flappingTime := by
  rw [observe, noteOscillation, if_pos hc]

/-- The times that are left then. -/
theorem observe_of_steady (hc : c.state = r.state) : (r.observe p c).flappingTimes =
    r.flappingTimes.filter (inWindow c.timestamp p.flappingTime) := by
  rw [observe_eq_prune hc, prune_flappingTimes]

/-! ## 2. The rules -/

/-- The rule of an entity that is off starts the count at one and does not look at the threshold, so
the threshold has to be more than one. -/
theorem processOff_calm (hfreq : 2 ≤ p.flappingFreq) : (r.processOff c).Calm p := by
  unfold processOff
  split
  · exact calm_of_value ⟨nofun, nofun⟩
  · exact calm_of_few hfreq

/-- A rule that flaps whenever there is enough. -/
theorem calm_of_observe {x : StatusRecord}
    (hflap : (r.observe p c).oscillates p = true → x.value = .flapping)
    (hkeep : x.flappingTimes = (r.observe p c).flappingTimes) : x.Calm p := by
  cases hf : (r.observe p c).oscillates p with
  | true =>
    refine calm_of_value ?_
    rw [hflap hf]
    exact ⟨nofun, nofun⟩
  | false =>
    refine calm_of_few ?_
    rw [hkeep]
    exact few_of_oscillates hf

theorem processOngoing_calm : (r.processOngoing p c).Calm p := by
  refine calm_of_observe (fun hf => ?_) processOngoing_flappingTimes
  unfold processOngoing
  dsimp only
  rw [if_pos hf]

theorem processFlapping_calm : (r.processFlapping p c).Calm p := by
  refine calm_of_observe (fun hf => ?_) processFlapping_flappingTimes
  unfold processFlapping
  dsimp only
  rw [if_pos hf]

theorem processCanceled_calm (hfreq : 2 ≤ p.flappingFreq) (hv : r.value = .canceled) :
    (r.processCanceled p c).Calm p := by
  unfold processCanceled
  split
  · exact calm_of_value ⟨by simp [hv], by simp [hv]⟩
  · refine calm_of_few ?_
    rw [settle_flappingTimes]
    exact Nat.lt_of_lt_of_le Nat.zero_lt_two hfreq

/-- An alert after the stealthy window that is also the oscillation with which the threshold is
reached. The rule settles the entity by the window, before it would look at the threshold. -/
structure Relapse (p : Policy) (r : StatusRecord) (c : Check) : Prop where
  stealthy : r.value = .stealthy
  turn : c.state ≠ r.state
  alert : c.state ≠ .ok
  late : elapsed c.timestamp (r.stealthyTime.getD r.timestamp) p.stealthyTime = true
  oscillates : (r.observe p c).oscillates p = true

/-- **The rule of a quick recovery** is the one that may leave a relapse. -/
theorem processStealthy_calm (hv : r.value = .stealthy) (hfew : r.flappingTimes.length < p.flappingFreq) :
    (r.processStealthy p c).Calm p ∨ Relapse p r c := by
  cases hf : (r.observe p c).oscillates p with
  | false =>
    refine Or.inl (calm_of_few ?_)
    rw [processStealthy_flappingTimes]
    exact few_of_oscillates hf
  | true =>
    -- A steady check adds nothing, so it is not the one that reached the threshold.
    have hturn : c.state ≠ r.state := by
      intro hc
      have henough : p.flappingFreq ≤ (r.observe p c).flappingTimes.length := of_decide_eq_true hf
      rw [observe_of_steady hc] at henough
      have hle := List.length_filter_le (inWindow c.timestamp p.flappingTime) r.flappingTimes
      omega
    cases hs : elapsed c.timestamp (r.stealthyTime.getD r.timestamp) p.stealthyTime with
    | true =>
      by_cases hc : c.state = .ok
      · refine Or.inl (calm_of_value ?_)
        unfold processStealthy
        dsimp only
        rw [if_pos (Or.inr hs), settle_value, if_pos hc]
        exact ⟨nofun, nofun⟩
      · exact Or.inr ⟨hv, hturn, hc, hs, hf⟩
    | false =>
      refine Or.inl (calm_of_value ?_)
      unfold processStealthy
      dsimp only
      rw [if_neg (by simp [hturn, hs]), if_pos hf]
      exact ⟨nofun, nofun⟩

theorem Relapse.value_next (h : Relapse p r c) : (r.next p c).value = .ongoing := by
  have hrule : r.value.applyRule r p c = r.processStealthy p c := by rw [h.stealthy]; rfl
  rw [StatusRecord.next, stamp_value, hrule]
  unfold processStealthy
  dsimp only
  rw [if_pos (Or.inr h.late), settle_value, if_neg h.alert]

/-! ## 3. One step -/

/-- **A check leaves a calm record or is a relapse.** Of the record before only a quick recovery matters:
the other rules look at the threshold themselves, or start anew. -/
theorem calm_next (hfreq : 2 ≤ p.flappingFreq)
    (hfew : r.value = .stealthy → r.flappingTimes.length < p.flappingFreq) :
    (r.next p c).Calm p ∨ Relapse p r c := by
  unfold StatusRecord.next Status.applyRule
  cases hv : r.value with
  | off => exact Or.inl (processOff_calm hfreq).stamp
  | ongoing => exact Or.inl processOngoing_calm.stamp
  | stealthy => exact (processStealthy_calm hv (hfew hv)).imp_left Calm.stamp
  | flapping => exact Or.inl processFlapping_calm.stamp
  | canceled => exact Or.inl (processCanceled_calm hfreq hv).stamp

theorem calm_resolve (hfew : r.value = .stealthy → r.flappingTimes.length < p.flappingFreq)
    (hv : r.value = .stealthy ∨ r.value = .flapping) : (r.resolve p now).Calm p := by
  rcases hv with hv | hv
  · rw [resolve_of_stealthy hv]
    refine calm_of_few ?_
    rw [settle_flappingTimes]
    exact hfew hv
  · rw [resolve_of_flapping hv]
    split
    · refine calm_of_value ?_
      rw [prune_value, hv]
      exact ⟨nofun, nofun⟩
    · rename_i hf
      refine calm_of_few ?_
      rw [settle_flappingTimes]
      exact few_of_oscillates (Bool.eq_false_iff.mpr hf)

theorem settle_value_ne : (r.settle c).value ≠ .flapping := by
  rw [settle_value]
  split <;> nofun

/-- The rule of an ongoing alert looks at nothing but the oscillations. -/
theorem processOngoing_flapping_iff (hv : r.value ≠ .flapping) :
    (r.processOngoing p c).value = .flapping ↔ (r.observe p c).oscillates p = true := by
  unfold processOngoing
  dsimp only
  split
  · rename_i hf
    exact ⟨fun _ => hf, fun _ => rfl⟩
  · rename_i hf
    refine ⟨fun hflap => absurd hflap ?_, fun h => absurd h hf⟩
    have hobserved : (r.observe p c).value ≠ .flapping := by rw [observe_value]; exact hv
    split
    · split <;> nofun
    · split <;> exact hobserved

/-- **A steady check** makes an entity flap that did not when it is ongoing, and the window still holds
enough oscillations. -/
theorem Coherent.value_next_of_steady (h : r.Coherent p) (hv : r.value ≠ .flapping)
    (hc : c.state = r.state) : (r.next p c).value = .flapping ↔ r.value = .ongoing ∧
      p.flappingFreq ≤ (r.flappingTimes.filter (inWindow c.timestamp p.flappingTime)).length := by
  unfold StatusRecord.next Status.applyRule
  rw [stamp_value]
  cases hvalue : r.value with
  | off =>
    have hok : c.state = .ok := hc.trans (h.off hvalue).1
    simp [processOff, hok]
  | ongoing =>
    dsimp only
    rw [processOngoing_flapping_iff hv, oscillates, observe_of_steady hc, decide_eq_true_iff]
    exact ⟨fun henough => ⟨rfl, henough⟩, And.right⟩
  | stealthy =>
    unfold processStealthy
    dsimp only
    rw [if_pos (Or.inl hc)]
    exact iff_of_false settle_value_ne fun h => Status.noConfusion h.1
  | flapping => exact absurd hvalue hv
  | canceled =>
    have hcanceled : (r.processCanceled p c).value ≠ .flapping := by
      unfold processCanceled
      split
      · exact hv
      · exact settle_value_ne
    exact iff_of_false hcanceled fun h => Status.noConfusion h.1

end StatusRecord

namespace Tracker

open StatusRecord

variable {p : Policy} {id : String} {run : List TrackerCommand} {s : SessionStore} {r : StatusRecord}

/-! ## 4. Runs -/

/-- **Every move** leaves a calm record or is a relapse. The threshold is two or more (`hfreq`), since
the rule of an entity that is off starts the count at one without a look at it. -/
theorem Move.calm_or_relapse {c : TrackerCommand} {o : Option StatusRecord} {r' : StatusRecord}
    (hm : Move ⟨.standard, p⟩ id c o r') (hfreq : 2 ≤ p.flappingFreq)
    (hfew : ∀ r, o = some r → r.value = .stealthy → r.flappingTimes.length < p.flappingFreq) :
    r'.Calm p ∨ ∃ rk check before, c = .process id rk check ∧ o = some before ∧
      Relapse p before check ∧ r' = { before.next p check with routingKey := some rk } := by
  have hzero : 0 < p.flappingFreq := Nat.lt_of_lt_of_le Nat.zero_lt_two hfreq
  cases hm with
  | first => exact Or.inl (calm_of_few hzero)
  | @next r _ rk check _ hnext =>
    rw [advance_standard] at hnext
    cases hnext
    rcases calm_next (c := check) hfreq (hfew r rfl) with hcalm | hrelapse
    · exact Or.inl (hcalm.withKey _)
    · exact Or.inr ⟨rk, check, r, rfl, rfl, hrelapse, rfl⟩
  | cancel => exact Or.inl (calm_of_value ⟨nofun, nofun⟩)
  | @restore r time =>
    have hnone : (restored r time).flappingTimes = [] := by simp [restored]
    refine Or.inl (calm_of_few ?_)
    rw [hnone]
    exact hzero
  | @resolve r _ hexpired =>
    exact Or.inl (calm_resolve (hfew r rfl) ((isExpired_iff.mp hexpired).imp And.left And.left))

/-- The last check that the run applied to the entity was a relapse, and it left the record `r`. -/
def Relapsed (p : Policy) (id : String) (run : List TrackerCommand) (s : SessionStore)
    (r : StatusRecord) : Prop :=
  ∃ earlier rk c later before, run = earlier ++ .process id rk c :: later ∧
    Holds id (some before) (Action.runAll (TrackerCommand.run ⟨.standard, p⟩) earlier s) ∧
    Holds id (some r)
      (Action.runAll (TrackerCommand.run ⟨.standard, p⟩) (earlier ++ [.process id rk c]) s) ∧
    Relapse p before c ∧ r = { before.next p c with routingKey := some rk }

theorem Relapsed.value (h : Relapsed p id run s r) : r.value = .ongoing := by
  obtain ⟨_, _, _, _, _, -, -, -, hrelapse, rfl⟩ := h
  exact hrelapse.value_next

/-- Commands that leave the record leave it the result of the relapse. -/
theorem Relapsed.append (h : Relapsed p id run s r) (more : List TrackerCommand) :
    Relapsed p id (run ++ more) s r := by
  obtain ⟨earlier, rk, c, later, before, rfl, h⟩ := h
  exact ⟨earlier, rk, c, later ++ more, before, List.append_assoc .., h⟩

/-- The record of the entity is coherent, and calm unless it comes from a relapse. This is the
invariant of a run, which names the run because a relapse is a matter of the past. -/
def Settled (p : Policy) (id : String) (run : List TrackerCommand) (s : SessionStore) : Prop :=
  ∃ o, Holds id o (Action.runAll (TrackerCommand.run ⟨.standard, p⟩) run s) ∧
    ∀ r, o = some r → r.Coherent p ∧ (r.Calm p ∨ Relapsed p id run s r)

/-- A relapse leaves no quick recovery. -/
theorem few_of_stealthy (h : r.Calm p ∨ Relapsed p id run s r) (hv : r.value = .stealthy) :
    r.flappingTimes.length < p.flappingFreq := by
  rcases h with hcalm | hrelapsed
  · exact hcalm (Or.inr hv)
  · exact Status.noConfusion (hv.symm.trans hrelapsed.value)

/-- **One command more.** It is refused and leaves the record and what is said of it, or it makes a
move, and that leaves a calm record or is the relapse itself. -/
theorem Settled.concat (hfreq : 2 ≤ p.flappingFreq) (h : Settled p id run s) (c : TrackerCommand) :
    Settled p id (run ++ [c]) s := by
  obtain ⟨o, hholds, ho⟩ := h
  have hrun : Action.runAll (TrackerCommand.run ⟨.standard, p⟩) (run ++ [c]) s =
      ((c.run ⟨.standard, p⟩).runOn (Action.runAll (TrackerCommand.run ⟨.standard, p⟩) run s)).2 :=
    Action.runAll_append _ _ _ _
  rcases holds_run (t := ⟨.standard, p⟩) c hholds with hkept | ⟨-, r', hr', hmove⟩
  · rw [← hrun] at hkept
    refine ⟨o, hkept, fun r hr => ?_⟩
    obtain ⟨hcoh, hcalm⟩ := ho r hr
    exact ⟨hcoh, hcalm.imp_right fun h => h.append [c]⟩
  · rw [← hrun] at hr'
    refine ⟨some r', hr', ?_⟩
    rintro _ ⟨⟩
    refine ⟨hmove.coherent fun r hr => (ho r hr).1, ?_⟩
    rcases hmove.calm_or_relapse hfreq fun r hr => few_of_stealthy (ho r hr).2 with
      hcalm | ⟨rk, check, before, rfl, rfl, hrelapse, heq⟩
    · exact Or.inl hcalm
    · exact Or.inr ⟨run, rk, check, [], before, rfl, hholds, hr', hrelapse, heq⟩

theorem settled_run (hfreq : 2 ≤ p.flappingFreq) (hs : s.store.recordAt id = .ok none)
    (run : List TrackerCommand) : Settled p id run s := by
  induction run using List.reverseRecOn with
  | nil => exact ⟨none, hs, fun r hr => nomatch hr⟩
  | append_singleton run c ih => exact ih.concat hfreq c

/-! ## 5. Flapping at a steady check -/

/-- **A steady check makes an entity flap after a relapse, and only then.** The run may be of any
commands at any times, the plan of faults any plan. The entity does not flap (`hv`), and a check that
finds its recorded state again (`hsteady`) is applied: it is not stale (`hc`) and no fault strikes
(`hok`). The entity flaps then if and only if the last check before was a relapse, and the window still
holds enough of the oscillations.

The threshold is two at least (`hfreq`). With a smaller one the alert of an entity that is off would be
enough, and a steady check after it makes the entity flap. The entity has no record at first (`hs`),
since an ongoing record from elsewhere may hold enough oscillations without a relapse. -/
theorem steady_flapping_iff (p : Policy) (hfreq : 2 ≤ p.flappingFreq) (id : String)
    (run : List TrackerCommand) (s : SessionStore) (hs : s.store.recordAt id = .ok none)
    (hr : (Action.runAll (TrackerCommand.run ⟨.standard, p⟩) run s).store.recordAt id = .ok (some r))
    (hv : r.value ≠ .flapping) (rk : String) (c : Check) (hsteady : c.state = r.state)
    (hc : r.timestamp ≤ c.timestamp)
    (hok : (((TrackerCommand.process id rk c).run ⟨.standard, p⟩).runOn
      (Action.runAll (TrackerCommand.run ⟨.standard, p⟩) run s)).1.isOk = true) :
    ∃ r', (Action.runAll (TrackerCommand.run ⟨.standard, p⟩) (run ++ [.process id rk c])
        s).store.recordAt id = .ok (some r') ∧
      (r'.value = .flapping ↔ Relapsed p id run s r ∧
        p.flappingFreq ≤ (r.flappingTimes.filter (inWindow c.timestamp p.flappingTime)).length) := by
  obtain ⟨o, hholds, ho⟩ := settled_run hfreq hs run
  obtain rfl : o = some r := Except.ok.inj (hholds.symm.trans hr)
  obtain ⟨hcoh, hcalm⟩ := ho r rfl
  refine ⟨{ r.next p c with routingKey := some rk }, ?_, ?_⟩
  · rw [Action.runAll_append]
    exact (holds_of_check hholds hok).trans (congrArg _ (renewFor_of_le hc id rk))
  · show (r.next p c).value = .flapping ↔ _
    rw [hcoh.value_next_of_steady hv hsteady]
    refine ⟨fun ⟨hongoing, henough⟩ => ⟨?_, henough⟩, fun ⟨h, henough⟩ => ⟨h.value, henough⟩⟩
    rcases hcalm with hcalm | hrelapsed
    · have hfew := hcalm (Or.inl hongoing)
      have hle := List.length_filter_le (inWindow c.timestamp p.flappingTime) r.flappingTimes
      omega
    · exact hrelapsed

/-- With a short stealthy window the second oscillation comes after it. -/
def hastyPolicy : Policy :=
  { Policy.standard with flappingFreq := 2, stealthyTime := Instant.latest.nearest 10 }

/-- An alert, a quick recovery, and the next alert when the window is over. -/
def relapse : List TrackerCommand := [hostCheck 2 1000, hostCheck 0 1001, hostCheck 2 1020]

/-- It is ongoing with two oscillations. -/
def relapsedRecord : StatusRecord :=
  { StatusRecord.first (CheckState.ok.nearest 2) (Instant.latest.nearest 1020) with
    flappingTimes := [Instant.latest.nearest 1001, Instant.latest.nearest 1020]
    routingKey := some "h" }

theorem steady_flapping_iff_relapse :
    let t : Tracker := ⟨.standard, hastyPolicy⟩
    let s := FaultyStore.of (Backend.memory .empty)
    let c : Check := ⟨CheckState.ok.nearest 2, Instant.latest.nearest 1021⟩
    2 ≤ hastyPolicy.flappingFreq ∧ s.store.recordAt "/host" = .ok none ∧
      (Action.runAll (TrackerCommand.run t) relapse s).store.recordAt "/host" =
        .ok (some relapsedRecord) ∧
      relapsedRecord.value ≠ .flapping ∧ c.state = relapsedRecord.state ∧
      relapsedRecord.timestamp ≤ c.timestamp ∧
      (((TrackerCommand.process "/host" "h" c).run t).runOn
        (Action.runAll (TrackerCommand.run t) relapse s)).1.isOk = true ∧
      ∃ r', (Action.runAll (TrackerCommand.run t) (relapse ++ [.process "/host" "h" c])
          s).store.recordAt "/host" = .ok (some r') ∧
        (r'.value = .flapping ↔ Relapsed hastyPolicy "/host" relapse s relapsedRecord ∧
          2 ≤ (relapsedRecord.flappingTimes.filter
            (inWindow c.timestamp hastyPolicy.flappingTime)).length) := by
  intro t s c
  have hr : (Action.runAll (TrackerCommand.run t) relapse s).store.recordAt "/host" =
      .ok (some relapsedRecord) := by decide +kernel
  have hok : (((TrackerCommand.process "/host" "h" c).run t).runOn
      (Action.runAll (TrackerCommand.run t) relapse s)).1.isOk = true := by decide +kernel
  exact ⟨by decide, rfl, hr, nofun, rfl, by decide, hok,
    steady_flapping_iff hastyPolicy (by decide) "/host" relapse s rfl hr nofun "h" c rfl (by decide) hok⟩

/-- Nine oscillations within seconds, then an alert when the default stealthy window is over. -/
def longRelapse : List TrackerCommand :=
  [hostCheck 2 1000, hostCheck 0 1001, hostCheck 2 1002, hostCheck 0 1003, hostCheck 2 1004,
    hostCheck 0 1005, hostCheck 2 1006, hostCheck 0 1007, hostCheck 2 1008, hostCheck 0 1009,
    hostCheck 2 1400]

/-- It leaves the host ongoing, with as many oscillations as it takes to flap. -/
def longRelapseRecord : StatusRecord :=
  { StatusRecord.first (CheckState.ok.nearest 2) (Instant.latest.nearest 1400) with
    flappingTimes := [1001, 1002, 1003, 1004, 1005, 1006, 1007, 1008, 1009, 1400].map
      Instant.latest.nearest
    routingKey := some "h" }

/-- Under the default policy too a check that repeats the recorded state makes an entity flap. The run
is `longRelapse`, and the check comes a second after it. -/
theorem flapping_without_oscillation :
    ¬ ∀ (p : Policy) (run : List TrackerCommand) (rk : String) (c : Check) (r r' : StatusRecord),
      2 ≤ p.flappingFreq →
      (Action.runAll (TrackerCommand.run ⟨.standard, p⟩) run (Backend.memory .empty)).recordAt "/host" =
        .ok (some r) →
      r.value ≠ .flapping → r.timestamp ≤ c.timestamp →
      (Action.runAll (TrackerCommand.run ⟨.standard, p⟩) (run ++ [.process "/host" rk c])
        (Backend.memory .empty)).recordAt "/host" = .ok (some r') →
      r'.value = .flapping → c.state ≠ r.state := by
  intro h
  have hbefore : (Action.runAll (TrackerCommand.run ⟨.standard, .standard⟩) longRelapse
      (Backend.memory .empty)).recordAt "/host" = .ok (some longRelapseRecord) := by decide +kernel
  have hafter : (Action.runAll (TrackerCommand.run ⟨.standard, .standard⟩)
      (longRelapse ++ [hostCheck 2 1401]) (Backend.memory .empty)).recordAt "/host" =
      .ok (some { longRelapseRecord with
        value := .flapping, timestamp := Instant.latest.nearest 1401 }) := by
    decide +kernel
  exact h .standard longRelapse "h" ⟨CheckState.ok.nearest 2, Instant.latest.nearest 1401⟩ _ _
    (by decide) hbefore nofun (by decide) hafter rfl rfl

end Tracker
end AlertStatus
