import AlertStatus.Proofs.Status.Window
import AlertStatus.Status.Tracker

/-!
# Coherent records

Five rules, the stamp, a cancellation and its lifting, and the sweep each rewrite some of the fields
of a status record and leave the others as they were. `Coherent` says what the fields owe to each
other between two of these steps, and this file proves that every step keeps it.

The rules run in the middle of a step: the record still holds the previous state and time. So a rule
is not asked for a coherent record but for one that the stamp of its check makes coherent (`Ready`),
which is the same list of demands read at the state and the time of the check. What the stamp then
adds is the window: it prunes at the check's time, whatever the rule did.

The one demand with an exception is `recent`. A cancellation may move the time of a record anywhere
and keeps its oscillations, so for a canceled record nothing ties the two together. No later step
needs it to: whatever takes a record out of a cancellation forgets the oscillations first.
-/

set_option autoImplicit false

namespace AlertStatus
namespace StatusRecord

/-! ## 1. What a record owes -/

/-- The fields of a record fit its status, its oscillations are in order, and, unless it is canceled,
they lie in the flapping window that ends at its time. There is one demand for each status, on the
fields that its rule reads, and two on the oscillations. -/
structure Coherent (p : Policy) (r : StatusRecord) : Prop where
  off : r.value = .off → r.state = .ok ∧ r.pendingTime = none ∧ r.stealthyTime = none
  ongoing : r.value = .ongoing →
    r.state ≠ .ok ∧ r.pendingTime.isSome = true ∧ r.stealthyTime = none
  stealthy : r.value = .stealthy → ∃ since, r.stealthyTime = some since ∧
    r.pendingTime = some since ∧ r.timestamp.minus since ≤ p.stealthyTime
  flapping : r.value = .flapping → r.stealthyTime = none ∧ r.pendingTime.isSome = true ∧
    p.flappingFreq ≤ r.flappingTimes.length
  canceled : r.value = .canceled → r.pendingTime = none ∧ r.stealthyTime = none
  ordered : r.flappingTimes.Pairwise (· ≤ ·)
  recent : r.value ≠ .canceled → ∀ t ∈ r.flappingTimes,
    t ≤ r.timestamp ∧ r.timestamp.minus t ≤ p.flappingTime

/-- The stamp of `c` will make the record coherent: the demands of `Coherent` at the state and the time
of `c`, and oscillations that are still enough after the stamp pruned them. That they lie in the window
is not among the demands, since the stamp sees to it. -/
structure Ready (p : Policy) (c : Check) (r : StatusRecord) : Prop where
  off : r.value = .off → c.state = .ok ∧ r.pendingTime = none ∧ r.stealthyTime = none
  ongoing : r.value = .ongoing →
    c.state ≠ .ok ∧ r.pendingTime.isSome = true ∧ r.stealthyTime = none
  stealthy : r.value = .stealthy → ∃ since, r.stealthyTime = some since ∧
    r.pendingTime = some since ∧ c.timestamp.minus since ≤ p.stealthyTime
  flapping : r.value = .flapping → r.stealthyTime = none ∧ r.pendingTime.isSome = true ∧
    p.flappingFreq ≤ (r.flappingTimes.filter (inWindow c.timestamp p.flappingTime)).length
  canceled : r.value = .canceled → r.pendingTime = none ∧ r.stealthyTime = none
  ordered : r.flappingTimes.Pairwise (· ≤ ·)

variable {p : Policy} {r : StatusRecord} {c : Check} {now : Instant}

/-! ## 2. The stamp -/

@[simp] theorem stamp_value : (r.stamp p c).value = r.value := by
  unfold stamp
  split <;> rfl

@[simp] theorem stamp_state : (r.stamp p c).state = c.state := by
  unfold stamp
  split
  · rename_i h
    exact h.symm
  · rfl

@[simp] theorem stamp_timestamp : (r.stamp p c).timestamp = c.timestamp := rfl

@[simp] theorem stamp_pendingTime : (r.stamp p c).pendingTime = r.pendingTime := by
  unfold stamp
  split <;> rfl

@[simp] theorem stamp_stealthyTime : (r.stamp p c).stealthyTime = r.stealthyTime := by
  unfold stamp
  split <;> rfl

theorem stamp_flappingTimes : (r.stamp p c).flappingTimes =
    r.flappingTimes.filter (inWindow c.timestamp p.flappingTime) := by
  unfold stamp
  split <;> rfl

/-- **The stamp closes a step.** The window is its own doing; everything else was asked of the
rule before it. -/
theorem Ready.stamp (h : r.Ready p c) : (r.stamp p c).Coherent p where
  off := by simpa using h.off
  ongoing := by simpa using h.ongoing
  stealthy := by simpa using h.stealthy
  flapping := by simpa [stamp_flappingTimes] using h.flapping
  canceled := by simpa using h.canceled
  ordered := by
    rw [stamp_flappingTimes]
    exact h.ordered.filter _
  recent := by
    intro _ t ht
    rw [stamp_flappingTimes, List.mem_filter, inWindow_iff] at ht
    exact ht.2

/-! ## 3. Settling -/

theorem settle_of_ok (h : c.state = .ok) : r.settle c = r.enterOff := if_pos h

theorem settle_of_not_ok (h : c.state ≠ .ok) : r.settle c = r.enterOngoing c.timestamp := if_neg h

@[simp] theorem settle_state : (r.settle c).state = r.state := by
  unfold settle
  split <;> rfl

@[simp] theorem settle_timestamp : (r.settle c).timestamp = r.timestamp := by
  unfold settle
  split <;> rfl

@[simp] theorem settle_flappingTimes : (r.settle c).flappingTimes = r.flappingTimes := by
  unfold settle
  split <;> rfl

theorem settle_value : (r.settle c).value = if c.state = .ok then .off else .ongoing := by
  unfold settle
  split <;> rfl

/-- An ongoing record owes only what an ongoing one owes. -/
theorem Ready.of_ongoing (hv : r.value = .ongoing)
    (hd : c.state ≠ .ok ∧ r.pendingTime.isSome = true ∧ r.stealthyTime = none)
    (ho : r.flappingTimes.Pairwise (· ≤ ·)) : r.Ready p c := by
  refine ⟨?_, fun _ => hd, ?_, ?_, ?_, ho⟩ <;> (intro hq; rw [hv] at hq; cases hq)

/-- A settled record is off or ongoing, so the demands of the three other statuses are void. -/
theorem Ready.settle (ho : r.flappingTimes.Pairwise (· ≤ ·)) : (r.settle c).Ready p c := by
  by_cases hc : c.state = .ok
  · rw [settle_of_ok hc]
    exact ⟨fun _ => ⟨hc, rfl, rfl⟩, nofun, nofun, nofun, nofun, ho⟩
  · rw [settle_of_not_ok hc]
    exact ⟨nofun, fun _ => ⟨hc, rfl, rfl⟩, nofun, nofun, nofun, ho⟩

/-- Settling at the recorded state, as the sweep and the lifting of a cancellation do. No stamp
follows, so the window is asked for here. -/
theorem Coherent.settle (hs : c.state = r.state) (ho : r.flappingTimes.Pairwise (· ≤ ·))
    (hr : ∀ t ∈ r.flappingTimes, t ≤ r.timestamp ∧ r.timestamp.minus t ≤ p.flappingTime) :
    (r.settle c).Coherent p := by
  by_cases hc : c.state = .ok
  · rw [settle_of_ok hc]
    exact ⟨fun _ => ⟨hs ▸ hc, rfl, rfl⟩, nofun, nofun, nofun, nofun, ho, fun _ => hr⟩
  · rw [settle_of_not_ok hc]
    exact ⟨nofun, fun _ => ⟨hs ▸ hc, rfl, rfl⟩, nofun, nofun, nofun, ho, fun _ => hr⟩

/-! ## 4. Observing a check -/

@[simp] theorem observe_pendingTime : (r.observe p c).pendingTime = r.pendingTime := by
  unfold observe noteOscillation
  split <;> rfl

@[simp] theorem observe_stealthyTime : (r.observe p c).stealthyTime = r.stealthyTime := by
  unfold observe noteOscillation
  split <;> rfl

@[simp] theorem observe_value : (r.observe p c).value = r.value := by
  unfold observe noteOscillation
  split <;> rfl

/-- What was observed is within the window already, so the stamp counts what the rule counted. -/
theorem length_filter_observe :
    ((r.observe p c).flappingTimes.filter (inWindow c.timestamp p.flappingTime)).length =
      (r.observe p c).flappingTimes.length := by
  rw [observe, filter_prune]

/-- **Observing keeps the order**: the new time goes to the end, and the check is not older than the
record whose oscillations it follows. For a canceled record this fails, since its time may have been
set back behind them. -/
theorem ordered_observe (h : r.Coherent p) (hv : r.value ≠ .canceled)
    (ht : r.timestamp ≤ c.timestamp) : (r.observe p c).flappingTimes.Pairwise (· ≤ ·) := by
  rw [observe, prune_flappingTimes]
  refine List.Pairwise.filter _ ?_
  unfold noteOscillation
  split
  · exact h.ordered
  · refine List.pairwise_append.mpr ⟨h.ordered, List.pairwise_singleton .., ?_⟩
    intro t htm u hu
    rw [List.mem_singleton] at hu
    subst hu
    exact Int.le_trans (h.recent hv t htm).1 ht

/-- A record that flaps after observing a check is ready for the stamp: its alert is still
running, and it holds enough oscillations. -/
theorem Ready.flap (ho : (r.observe p c).flappingTimes.Pairwise (· ≤ ·))
    (hp : r.pendingTime.isSome = true) (hf : (r.observe p c).oscillates p = true) :
    ({ r.observe p c with value := .flapping, stealthyTime := none } : StatusRecord).Ready p c := by
  refine ⟨nofun, nofun, nofun, fun _ => ⟨rfl, ?_, ?_⟩, nofun, ho⟩
  · show (r.observe p c).pendingTime.isSome = true
    rw [observe_pendingTime]
    exact hp
  · show p.flappingFreq ≤ ((r.observe p c).flappingTimes.filter _).length
    rw [length_filter_observe]
    exact of_decide_eq_true hf

/-! ## 5. The rules -/

theorem Coherent.ready_processOff (h : r.Coherent p) (hv : r.value = .off) :
    (r.processOff c).Ready p c := by
  obtain ⟨-, hp, hs⟩ := h.off hv
  unfold processOff
  split
  · rename_i hc
    exact ⟨fun _ => ⟨hc, hp, hs⟩, nofun, nofun, nofun, nofun, h.ordered⟩
  · rename_i hc
    exact ⟨nofun, fun _ => ⟨hc, rfl, rfl⟩, nofun, nofun, nofun, List.pairwise_singleton ..⟩

theorem Coherent.ready_processOngoing (h : r.Coherent p) (hv : r.value = .ongoing)
    (ht : r.timestamp ≤ c.timestamp) : (r.processOngoing p c).Ready p c := by
  obtain ⟨-, hp, hs⟩ := h.ongoing hv
  have ho := ordered_observe (c := c) h (by simp [hv]) ht
  have hval : (r.observe p c).value = .ongoing := observe_value.trans hv
  obtain ⟨since, hsince⟩ := Option.isSome_iff_exists.mp hp
  unfold processOngoing
  dsimp only
  split
  · rename_i hf
    exact Ready.flap ho hp hf
  split
  · rename_i hc
    split
    · exact ⟨fun _ => ⟨hc, rfl, rfl⟩, nofun, nofun, nofun, nofun, ho⟩
    · -- A quick recovery: both times are the start of the alert that just ended.
      rename_i hq
      refine ⟨nofun, nofun, fun _ => ⟨since, ?_, ?_, ?_⟩, nofun, nofun, ho⟩
      · simp [hsince]
      · simp [hsince]
      · rw [Bool.not_eq_true, hsince] at hq
        exact elapsed_eq_false_iff.mp hq
  · rename_i hc
    split
    · exact Ready.of_ongoing hval ⟨hc, rfl, by simp [hs]⟩ ho
    · exact Ready.of_ongoing hval ⟨hc, by simp [hp], by simp [hs]⟩ ho

theorem Coherent.ready_processStealthy (h : r.Coherent p) (hv : r.value = .stealthy)
    (ht : r.timestamp ≤ c.timestamp) : (r.processStealthy p c).Ready p c := by
  obtain ⟨since, hs, hp, -⟩ := h.stealthy hv
  have ho := ordered_observe (c := c) h (by simp [hv]) ht
  unfold processStealthy
  dsimp only
  split
  · exact Ready.settle ho
  · rename_i hq
    split
    · rename_i hf
      exact Ready.flap ho (by simp [hp]) hf
    · refine ⟨nofun, nofun, fun _ => ⟨since, by simp [hs], by simp [hp], ?_⟩, nofun, nofun, ho⟩
      rw [not_or, Bool.not_eq_true, hs] at hq
      exact elapsed_eq_false_iff.mp hq.2

theorem Coherent.ready_processFlapping (h : r.Coherent p) (hv : r.value = .flapping)
    (ht : r.timestamp ≤ c.timestamp) : (r.processFlapping p c).Ready p c := by
  obtain ⟨hs, hp, -⟩ := h.flapping hv
  have ho := ordered_observe (c := c) h (by simp [hv]) ht
  unfold processFlapping
  dsimp only
  split
  · rename_i hf
    have hnone : (r.observe p c).stealthyTime = none := observe_stealthyTime.trans hs
    have hflap := Ready.flap ho hp hf
    exact ⟨nofun, nofun, nofun, fun _ => ⟨hnone, (hflap.flapping rfl).2⟩, nofun, ho⟩
  · exact Ready.settle ho

/-- No time is compared here: what the record remembers is either kept as it is or dropped. -/
theorem Coherent.ready_processCanceled (h : r.Coherent p) (hv : r.value = .canceled) :
    (r.processCanceled p c).Ready p c := by
  unfold processCanceled
  split
  · exact ⟨fun hq => by simp [hv] at hq, fun hq => by simp [hv] at hq, fun hq => by simp [hv] at hq,
      fun hq => by simp [hv] at hq, h.canceled, h.ordered⟩
  · -- The cancellation is lifted, and all oscillations are forgotten with it.
    exact Ready.settle List.Pairwise.nil

/-! ## 6. The steps -/

theorem coherent_first (state : CheckState) (timestamp : Instant) :
    (StatusRecord.first state timestamp).Coherent p := by
  by_cases hc : state = .ok
  · refine ⟨?_, ?_, ?_, ?_, ?_, List.Pairwise.nil, fun _ t ht => absurd ht List.not_mem_nil⟩ <;>
      simp [first, hc]
  · refine ⟨?_, ?_, ?_, ?_, ?_, List.Pairwise.nil, fun _ t ht => absurd ht List.not_mem_nil⟩ <;>
      simp [first, hc]

/-- **A check that is not stale keeps a record coherent**, by the rule of the record's status. A stale
one (`ht` fails) would go before oscillations that the record holds already; the tracker never applies
it. -/
theorem Coherent.next (h : r.Coherent p) (ht : r.timestamp ≤ c.timestamp) :
    (r.next p c).Coherent p := by
  unfold StatusRecord.next Status.applyRule
  cases hv : r.value with
  | off => exact (h.ready_processOff hv).stamp
  | ongoing => exact (h.ready_processOngoing hv ht).stamp
  | stealthy => exact (h.ready_processStealthy hv ht).stamp
  | flapping => exact (h.ready_processFlapping hv ht).stamp
  | canceled => exact (h.ready_processCanceled hv).stamp

/-- A cancellation may set the record back in time or far ahead. -/
theorem Coherent.cancel (h : r.Coherent p) (timestamp : Instant) :
    (Tracker.canceled r timestamp).Coherent p :=
  ⟨nofun, nofun, nofun, nofun, fun _ => ⟨rfl, rfl⟩, h.ordered, fun hv => absurd rfl hv⟩

/-- Lifting a cancellation asks nothing of the record, since it keeps only the state. -/
theorem coherent_restored (r : StatusRecord) (timestamp : Instant) :
    (Tracker.restored r timestamp).Coherent p := by
  have hs : (({ r with flappingTimes := [], timestamp } : StatusRecord).settle
      ⟨r.state, timestamp⟩).Coherent p :=
    Coherent.settle rfl List.Pairwise.nil (fun t ht => absurd ht List.not_mem_nil)
  have heq : Tracker.restored r timestamp =
      ({ r with flappingTimes := [], timestamp } : StatusRecord).settle ⟨r.state, timestamp⟩ := by
    unfold Tracker.restored StatusRecord.settle
    split <;> rfl
  rw [heq]
  exact hs

/-- **A sweep keeps a record coherent at any time**, also one before the record's own: it prunes
further but never moves the record's time. -/
theorem Coherent.resolve (h : r.Coherent p) : (r.resolve p now).Coherent p := by
  unfold StatusRecord.resolve
  dsimp only
  split
  · rename_i hv
    exact Coherent.settle rfl h.ordered (h.recent (by simp [hv]))
  · rename_i hv
    have hrec := h.recent (by simp [hv])
    have ho : (r.prune now p.flappingTime).flappingTimes.Pairwise (· ≤ ·) := h.ordered.filter _
    have hr : ∀ t ∈ (r.prune now p.flappingTime).flappingTimes,
        t ≤ r.timestamp ∧ r.timestamp.minus t ≤ p.flappingTime :=
      fun t ht => hrec t (mem_prune.mp ht).1
    split
    · rename_i hf
      obtain ⟨hs, hp, -⟩ := h.flapping hv
      exact ⟨fun hq => by simp [hv] at hq, fun hq => by simp [hv] at hq, fun hq => by simp [hv] at hq,
        fun _ => ⟨hs, hp, of_decide_eq_true hf⟩, fun hq => by simp [hv] at hq, ho, fun _ => hr⟩
    · exact Coherent.settle rfl ho hr
  · exact h

/-- The routing key is no part of what a record owes. -/
theorem Coherent.withKey (h : r.Coherent p) (k : Option String) :
    ({ r with routingKey := k } : StatusRecord).Coherent p :=
  ⟨h.off, h.ongoing, h.stealthy, h.flapping, h.canceled, h.ordered, h.recent⟩

end StatusRecord
end AlertStatus
