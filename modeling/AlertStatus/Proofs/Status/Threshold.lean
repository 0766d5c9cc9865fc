import AlertStatus.Proofs.Status.Oscillation
import AlertStatus.Proofs.Status.Renewal

/-!
# Flapping starts at the threshold

An entity that is off becomes restless: an alert, and from then on each check finds another state than
the one before. As long as all of this fits into both windows, the entity flaps from the check on with
which its state has changed often enough, and not before.

Until then it goes to and fro between an ongoing and a stealthy alert, by two rules. Each of them hands
on to the other when the first alert was (`Restless`): an ongoing record keeps it as the start of its
alert, a stealthy one as the start of its window. So the stealthy window stays the one that the first
alert opened, and no check within it settles the entity.
-/

set_option autoImplicit false

namespace AlertStatus
namespace StatusRecord

variable {p : Policy} {r : StatusRecord} {c : Check} {start : Instant} {k : Nat}

/-! ## 1. One rule -/

/-- The entity is in an alert, or in a quick recovery from one, that began at `start`. In both cases
`start` is the time that the rule compares with the stealthy window. -/
def Restless (start : Instant) (r : StatusRecord) : Prop :=
  r.value = .ongoing ∧ r.pendingTime = some start ∨ r.value = .stealthy ∧ r.stealthyTime = some start

/-- **A change of state within the stealthy window** makes the entity flap, or leaves it restless.
After the window (`hs` fails) the rule of a quick recovery settles the entity and does not look at the
count. -/
theorem Restless.applyRule (h : r.Restless start) (hc : c.state ≠ r.state)
    (hs : elapsed c.timestamp start p.stealthyTime = false) :
    ((r.observe p c).oscillates p = true → (r.value.applyRule r p c).value = .flapping) ∧
      ((r.observe p c).oscillates p = false → (r.value.applyRule r p c).Restless start) := by
  rcases h with ⟨hv, hp⟩ | ⟨hv, hst⟩
  · have hrule : r.value.applyRule r p c = r.processOngoing p c := by rw [hv]; rfl
    rw [hrule]
    unfold processOngoing
    dsimp only
    refine ⟨fun hf => by rw [if_pos hf], fun hf => ?_⟩
    rw [if_neg (by rw [hf]; exact Bool.false_ne_true), hp, Option.getD_some, hs,
      if_neg Bool.false_ne_true]
    split
    · -- The quick recovery is dated back to the start of the alert.
      exact Or.inr ⟨rfl, rfl⟩
    · -- Only an alert of the same state could move the start.
      rw [if_neg fun h => hc h.1]
      exact Or.inl ⟨observe_value.trans hv, observe_pendingTime.trans hp⟩
  · have hrule : r.value.applyRule r p c = r.processStealthy p c := by rw [hv]; rfl
    rw [hrule]
    unfold processStealthy
    dsimp only
    rw [hst, Option.getD_some, hs, if_neg (by simp [hc])]
    refine ⟨fun hf => by rw [if_pos hf], fun hf => ?_⟩
    rw [if_neg (by rw [hf]; exact Bool.false_ne_true)]
    exact Or.inr ⟨rfl, (observe_stealthyTime (p := p) (c := c)).trans hst⟩

theorem processFlapping_of_oscillates (h : (r.observe p c).oscillates p = true) :
    (r.processFlapping p c).value = .flapping := by
  unfold processFlapping
  dsimp only
  rw [if_pos h]

/-- The rules of an alert keep what was observed. -/
theorem applyRule_flappingTimes (hv : r.value = .ongoing ∨ r.value = .stealthy ∨ r.value = .flapping) :
    (r.value.applyRule r p c).flappingTimes = (r.observe p c).flappingTimes := by
  rcases hv with hv | hv | hv <;> rw [hv]
  · exact processOngoing_flappingTimes
  · exact processStealthy_flappingTimes
  · exact processFlapping_flappingTimes

/-! ## 2. One step -/

/-- The state has changed `k` times in a row, for the first time by an alert at `start`. Below the
threshold the entity is restless, and from the threshold on it flaps. -/
structure Wavering (p : Policy) (start : Instant) (k : Nat) (r : StatusRecord) : Prop where
  count : r.flappingTimes.length = k
  since : start ≤ r.timestamp
  span : ∀ t ∈ r.flappingTimes, start ≤ t ∧ t ≤ r.timestamp
  few : k < p.flappingFreq → r.Restless start
  enough : p.flappingFreq ≤ k → r.value = .flapping

theorem Wavering.value_iff (h : r.Wavering p start k) :
    r.value = .flapping ↔ p.flappingFreq ≤ k := by
  refine ⟨fun hv => Nat.not_lt.mp fun hk => ?_, h.enough⟩
  rcases h.few hk with ⟨hongoing, -⟩ | ⟨hstealthy, -⟩
  · exact Status.noConfusion (hv.symm.trans hongoing)
  · exact Status.noConfusion (hv.symm.trans hstealthy)

/-- The routing key is no part of it. -/
theorem Wavering.withKey (h : r.Wavering p start k) (key : Option String) :
    ({ r with routingKey := key } : StatusRecord).Wavering p start k :=
  ⟨h.count, h.since, h.span, h.few, h.enough⟩

/-- A check that changes the state is counted, and nothing is dropped if all fits into the window. -/
theorem observe_of_turn (hc : c.state ≠ r.state)
    (hin : ∀ t ∈ r.flappingTimes ++ [c.timestamp], inWindow c.timestamp p.flappingTime t = true) :
    (r.observe p c).flappingTimes = r.flappingTimes ++ [c.timestamp] := by
  rw [observe, prune_flappingTimes, noteOscillation_flappingTimes, turn_of_ne hc]
  exact List.filter_eq_self.mpr hin

theorem Wavering.inWindow (h : r.Wavering p start k) (ht : r.timestamp ≤ c.timestamp)
    (hf : c.timestamp.val - start.val ≤ p.flappingTime.val) :
    ∀ t ∈ r.flappingTimes ++ [c.timestamp], start ≤ t ∧ t ≤ c.timestamp ∧
      StatusRecord.inWindow c.timestamp p.flappingTime t = true := by
  have hspan : ∀ t ∈ r.flappingTimes ++ [c.timestamp], start ≤ t ∧ t ≤ c.timestamp := by
    intro t htm
    rcases List.mem_append.mp htm with htm | htm
    · exact ⟨(h.span t htm).1, Int.le_trans (h.span t htm).2 ht⟩
    · rw [List.mem_singleton.mp htm]
      exact ⟨Int.le_trans h.since ht, Int.le_refl _⟩
  intro t htm
  obtain ⟨hstart, hle⟩ := hspan t htm
  have hval : start.val ≤ t.val := hstart
  exact ⟨hstart, hle, inWindow_iff.mpr ⟨hle, Instant.minus_le_of_val (by omega)⟩⟩

theorem next_state : (r.next p c).state = c.state := stamp_state

theorem next_timestamp : (r.next p c).timestamp = c.timestamp := stamp_timestamp

/-- **One change more**, within both windows: the stealthy one, so that no check settles the entity,
and the flapping one, so that no oscillation is dropped. -/
theorem Wavering.next (h : r.Wavering p start k) (hc : c.state ≠ r.state)
    (ht : r.timestamp ≤ c.timestamp)
    (hbrief : c.timestamp.val - start.val ≤ min p.stealthyTime.val p.flappingTime.val) :
    (r.next p c).Wavering p start (k + 1) := by
  have hin := h.inWindow ht (by omega)
  have hseen := observe_of_turn hc fun t htm => (hin t htm).2.2
  have hs : elapsed c.timestamp start p.stealthyTime = false :=
    elapsed_eq_false_iff.mpr (Instant.minus_le_of_val (by omega))
  have hcount : (r.observe p c).flappingTimes.length = k + 1 := by
    rw [hseen, List.length_append, h.count]
    rfl
  have hosc : (r.observe p c).oscillates p = decide (p.flappingFreq ≤ k + 1) := by
    rw [oscillates, hcount]
  have hvalue : r.value = .ongoing ∨ r.value = .stealthy ∨ r.value = .flapping := by
    rcases Nat.lt_or_ge k p.flappingFreq with hk | hk
    · exact (h.few hk).imp And.left fun hst => Or.inl hst.1
    · exact Or.inr (Or.inr (h.enough hk))
  -- All changes lie in the window, so neither the rule nor the stamp drops one.
  have hflaps : (r.next p c).flappingTimes = r.flappingTimes ++ [c.timestamp] := by
    rw [StatusRecord.next, stamp_flappingTimes, applyRule_flappingTimes hvalue, hseen]
    exact List.filter_eq_self.mpr fun t htm => (hin t htm).2.2
  refine ⟨?_, Int.le_trans h.since ht, ?_, fun hk => ?_, fun hk => ?_⟩
  · rw [hflaps, ← hseen, hcount]
  · rw [hflaps]
    exact fun t htm => ⟨(hin t htm).1, (hin t htm).2.1⟩
  · have hrestless := (h.few (by omega)).applyRule (p := p) hc hs
    have hfew := hrestless.2 (by rw [hosc, decide_eq_false_iff_not]; omega)
    unfold Restless at hfew ⊢
    rw [StatusRecord.next, stamp_value, stamp_pendingTime, stamp_stealthyTime]
    exact hfew
  · rw [StatusRecord.next, stamp_value]
    have henough : (r.observe p c).oscillates p = true := by rw [hosc, decide_eq_true_iff]; exact hk
    rcases Nat.lt_or_ge k p.flappingFreq with hlt | hge
    · exact ((h.few hlt).applyRule hc hs).1 henough
    · rw [h.enough hge]
      exact processFlapping_of_oscillates henough

/-- An alert of an entity that is off is the first change. One alone is not enough (`hfreq`), which the
rule of an entity that is off takes for granted, and the window must not be negative, or the stamp
would drop the very change. -/
theorem wavering_of_off (hfreq : 2 ≤ p.flappingFreq) (hwindow : 0 ≤ p.flappingTime.val)
    (hv : r.value = .off) (hc : c.state ≠ .ok) : (r.next p c).Wavering p c.timestamp 1 := by
  have hnext : r.next p c = (r.processOff c).stamp p c := by
    unfold StatusRecord.next Status.applyRule
    rw [hv]
  rw [processOff, if_neg hc] at hnext
  have hin : StatusRecord.inWindow c.timestamp p.flappingTime c.timestamp = true :=
    inWindow_iff.mpr ⟨Int.le_refl _, Instant.minus_le_of_val (by omega)⟩
  have hflaps : (r.next p c).flappingTimes = [c.timestamp] := by
    rw [hnext, stamp_flappingTimes]
    exact List.filter_cons_of_pos hin
  refine ⟨by rw [hflaps]; rfl, Int.le_refl _, ?_, fun _ => Or.inl ?_, fun h => by omega⟩
  · intro t ht
    rw [hflaps, List.mem_singleton] at ht
    rw [ht]
    exact ⟨Int.le_refl _, Int.le_refl _⟩
  · rw [hnext]
    exact ⟨stamp_value, stamp_pendingTime⟩

end StatusRecord

/-! ## 3. Runs -/

/-- The later check finds another state than the earlier one. -/
def Check.Turns (earlier later : Check) : Prop :=
  later.state ≠ earlier.state ∧ earlier.timestamp ≤ later.timestamp

instance : DecidableRel Check.Turns := fun _ _ => inferInstanceAs (Decidable (_ ∧ _))

/-- An alert at `since` or later, and checks that find another state each, within both windows. The
spans are exact differences, so that nothing here depends on where the program cuts them off. -/
structure Unrest (p : Policy) (since : Instant) (first : Check) (rest : List Check) : Prop where
  alert : first.state ≠ .ok
  current : since ≤ first.timestamp
  turning : (first :: rest).IsChain Check.Turns
  brief : ((first :: rest).getLast (List.cons_ne_nil _ _)).timestamp.val - first.timestamp.val ≤
    min p.stealthyTime.val p.flappingTime.val

/-- The times are in order, so all checks are as near to the first one as the last one is. -/
theorem Unrest.brief_of_mem {p : Policy} {since : Instant} {first : Check} {rest : List Check}
    (h : Unrest p since first rest) : ∀ c ∈ first :: rest,
      c.timestamp.val - first.timestamp.val ≤ min p.stealthyTime.val p.flappingTime.val := by
  refine h.turning.backwards_induction
    (fun c => c.timestamp.val - first.timestamp.val ≤ _) _ ?_ fun _ => h.brief
  intro c d hcd hd
  have hle : c.timestamp.val ≤ d.timestamp.val := hcd.2
  omega

namespace Tracker

open StatusRecord

variable {p : Policy} {r : StatusRecord} {id : String} {start : Instant} {k : Nat}

/-- The checks of an entity, each with the routing key of its event. -/
def reports (id : String) (cs : List (String × Check)) : List TrackerCommand :=
  cs.map fun c => .process id c.1 c.2

/-- **A restless entity** counts every check on. Each changes the state (`hturning`), so each is
counted, and all are near to the first one (`hbrief`), so nothing is dropped and nothing settles the
entity. -/
theorem wavering_foldl (id : String) (h : r.Wavering p start k) {last : Check} (hstate : r.state = last.state)
    (htime : r.timestamp = last.timestamp) (cs : List (String × Check))
    (hturning : (last :: cs.map Prod.snd).IsChain Check.Turns)
    (hbrief : ∀ c ∈ cs.map Prod.snd,
      c.timestamp.val - start.val ≤ min p.stealthyTime.val p.flappingTime.val) :
    ∃ r', (reports id cs).foldl ((⟨.standard, p⟩ : Tracker).renewFor id) (some r) = some r' ∧
      r'.Wavering p start (k + cs.length) := by
  induction cs generalizing r k last with
  | nil => exact ⟨r, rfl, h⟩
  | cons c cs ih =>
    obtain ⟨⟨hturn, hafter⟩, hrest⟩ := List.isChain_cons_cons.mp hturning
    obtain ⟨hc, hcs⟩ := List.forall_mem_cons.mp hbrief
    rw [← hstate] at hturn
    rw [← htime] at hafter
    have hnext := (h.next hturn hafter hc).withKey (some c.1)
    obtain ⟨r', hr', hwavering⟩ := ih hnext next_state (next_timestamp (r := r) (p := p)) hrest hcs
    refine ⟨r', ?_, ?_⟩
    · rw [reports, List.map_cons, List.foldl_cons, renewFor_of_le hafter]
      exact hr'
    · rw [List.length_cons, Nat.add_comm cs.length, ← Nat.add_assoc]
      exact hwavering

/-- **Flapping starts at the threshold, neither before nor after.** An entity is off (`hoff`) when a
sequence of checks sets in that change its state each time, whatever the states are (`h`). As long as
they stay within both windows of the first of them, the entity flaps after `k` of them if and only if
`k` is enough.

The threshold is two at least (`hfreq`): the rule of an entity that is off does not look at it, so with
a threshold of one the first alert would be enough and yet make nothing flap. Of the record it is only
asked that it is off. It need not be coherent, since an alert starts the count of such a record
anew. -/
theorem flapping_iff_of_unrest (p : Policy) (hfreq : 2 ≤ p.flappingFreq) (id : String) {b : Backend}
    (hr : b.recordAt id = .ok (some r)) (hoff : r.value = .off) (first : String × Check)
    (rest : List (String × Check)) (h : Unrest p r.timestamp first.2 (rest.map Prod.snd)) (k : Nat)
    (hk : 1 ≤ k) (hn : k ≤ (first :: rest).length) :
    ∃ r', (Action.runAll (TrackerCommand.run ⟨.standard, p⟩)
        (reports id ((first :: rest).take k)) b).recordAt id = .ok (some r') ∧
      (r'.value = .flapping ↔ p.flappingFreq ≤ k) := by
  obtain ⟨j, rfl⟩ : ∃ j, k = j + 1 := ⟨k - 1, by omega⟩
  have hbrief := h.brief_of_mem
  have hwindow : 0 ≤ p.flappingTime.val := by
    have := hbrief first.2 List.mem_cons_self
    omega
  have hfirst := (wavering_of_off hfreq hwindow hoff h.alert).withKey (some first.1)
  have hturning : (first.2 :: (rest.take j).map Prod.snd).IsChain Check.Turns := by
    rw [List.map_take]
    exact h.turning.take (j + 1)
  obtain ⟨r', hr', hwavering⟩ := wavering_foldl id hfirst next_state
    (next_timestamp (r := r) (p := p)) (rest.take j)
    hturning fun c hc => hbrief c (List.mem_cons_of_mem _ (List.map_subset _ (List.take_subset j rest) hc))
  refine ⟨r', ?_, ?_⟩
  · rw [recordAt_runAll _ hr, reports, List.take_succ_cons, List.map_cons, List.foldl_cons,
      renewFor_of_le h.current]
    exact congrArg Except.ok hr'
  · rw [hwavering.value_iff, List.length_take_of_le (by simpa using hn), Nat.add_comm]

/-- What the record of a host says that is healthy at its first check. -/
def healthyRecord : StatusRecord :=
  { StatusRecord.first .ok (Instant.latest.nearest 1000) with routingKey := some "h" }

/-- Its first alert. -/
def firstAlert : String × Check := ("h", ⟨CheckState.ok.nearest 2, Instant.latest.nearest 1005⟩)

/-- Another severity each time, and one of the changes is a recovery. -/
def wildChecks : List (String × Check) :=
  [("h", ⟨CheckState.ok.nearest 1, Instant.latest.nearest 1010⟩),
    ("h", ⟨.ok, Instant.latest.nearest 1010⟩),
    ("h", ⟨CheckState.ok.nearest 3, Instant.latest.nearest 1300⟩)]

/-- With a threshold of three the second check does not make the host flap, and the third one does. -/
theorem flapping_iff_of_unrest_wildHost :
    let p : Policy := { Policy.standard with flappingFreq := 3 }
    let b := Action.runAll (TrackerCommand.run ⟨.standard, p⟩) [hostCheck 0 1000] (Backend.memory .empty)
    2 ≤ p.flappingFreq ∧ b.recordAt "/host" = .ok (some healthyRecord) ∧ healthyRecord.value = .off ∧
      Unrest p healthyRecord.timestamp firstAlert.2 (wildChecks.map Prod.snd) ∧
      (∃ r', (Action.runAll (TrackerCommand.run ⟨.standard, p⟩)
          (reports "/host" ((firstAlert :: wildChecks).take 2)) b).recordAt "/host" = .ok (some r') ∧
        (r'.value = .flapping ↔ 3 ≤ 2)) ∧
      ∃ r', (Action.runAll (TrackerCommand.run ⟨.standard, p⟩)
          (reports "/host" ((firstAlert :: wildChecks).take 3)) b).recordAt "/host" = .ok (some r') ∧
        (r'.value = .flapping ↔ 3 ≤ 3) := by
  intro p b
  have hb : b.recordAt "/host" = .ok (some healthyRecord) := by decide +kernel
  have hunrest : Unrest p healthyRecord.timestamp firstAlert.2 (wildChecks.map Prod.snd) :=
    ⟨by decide, by decide, by decide, by decide⟩
  exact ⟨by decide, hb, rfl, hunrest,
    flapping_iff_of_unrest p (by decide) "/host" hb rfl firstAlert wildChecks hunrest 2 (by decide)
      (by decide),
    flapping_iff_of_unrest p (by decide) "/host" hb rfl firstAlert wildChecks hunrest 3 (by decide)
      (by decide)⟩

end Tracker
end AlertStatus
