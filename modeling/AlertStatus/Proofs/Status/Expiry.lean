import AlertStatus.Proofs.Status.Window

/-!
# Expired records and their resolution

A record expires when it is stealthy, or flapping, for too long, and a sweep resolves it. The query
that finds it and the step that resolves it are written apart and compare times in different ways;
here they are shown to fit. What is found changes, since the oscillation that made it a candidate is
out of the window, and what is left is no candidate any more, now or at any earlier time.

All of it asks that the flapping window is not the largest span there is. At that one threshold no
span elapses, so a candidate could stay as it is.
-/

set_option autoImplicit false

namespace AlertStatus
namespace StatusRecord

variable {p : Policy} {r : StatusRecord} {now : Instant}

/-! ## 1. Which records expire -/

theorem isExpired_iff {stealthyShow flappingTime : Instant} :
    r.isExpired now stealthyShow flappingTime = true ↔
      (r.value = .stealthy ∧ ∃ t, r.stealthyTime = some t ∧ t < now.minus stealthyShow) ∨
      (r.value = .flapping ∧ ∃ t, r.oldestFlap = some t ∧ t < now.minus flappingTime) := by
  unfold isExpired outlasts
  cases r.value <;> simp [Option.any_eq_true]

/-- What is expired at some time is expired at every later one. -/
theorem isExpired_of_le {stealthyShow flappingTime now' : Instant} (h : now' ≤ now)
    (he : r.isExpired now' stealthyShow flappingTime = true) :
    r.isExpired now stealthyShow flappingTime = true := by
  rw [isExpired_iff] at he ⊢
  rcases he with ⟨hv, t, ht, hlt⟩ | ⟨hv, t, ht, hlt⟩
  · exact Or.inl ⟨hv, t, ht, Int.lt_of_lt_of_le hlt (Instant.minus_mono stealthyShow h)⟩
  · exact Or.inr ⟨hv, t, ht, Int.lt_of_lt_of_le hlt (Instant.minus_mono flappingTime h)⟩

/-! ## 2. What becomes of them -/

/-- Off or ongoing, by the state alone. -/
def plainStatus (r : StatusRecord) : Status := if r.state = .ok then .off else .ongoing

theorem value_settle (r : StatusRecord) (now : Instant) :
    (r.settle ⟨r.state, now⟩).value = r.plainStatus := by
  unfold settle plainStatus
  split <;> rfl

theorem plainStatus_ne_transient (r : StatusRecord) :
    r.plainStatus ≠ .stealthy ∧ r.plainStatus ≠ .flapping := by
  unfold plainStatus
  split <;> exact ⟨nofun, nofun⟩

theorem resolve_of_stealthy (hv : r.value = .stealthy) :
    r.resolve p now = r.settle ⟨r.state, now⟩ := by
  unfold resolve
  rw [hv]

theorem resolve_of_flapping (hv : r.value = .flapping) :
    r.resolve p now = if (r.prune now p.flappingTime).oscillates p then r.prune now p.flappingTime
      else (r.prune now p.flappingTime).settle ⟨r.state, now⟩ := by
  unfold resolve
  rw [hv]

theorem value_resolve_of_stealthy (hv : r.value = .stealthy) :
    (r.resolve p now).value = r.plainStatus := by
  rw [resolve_of_stealthy hv, value_settle]

/-- The oscillations that lie in the flapping window that ends at `now`, in unbounded integers. -/
def recentFlaps (r : StatusRecord) (p : Policy) (now : Instant) : List Instant :=
  r.flappingTimes.filter fun t => t.val ≤ now.val ∧ now.val - t.val ≤ p.flappingTime.val

theorem prune_eq_recentFlaps (hp : p.flappingTime < Instant.latest) :
    (r.prune now p.flappingTime).flappingTimes = r.recentFlaps p now := by
  rw [prune_flappingTimes, recentFlaps]
  refine List.filter_congr fun t _ => ?_
  rw [Bool.eq_iff_iff, inWindow_iff_val hp, decide_eq_true_iff]

theorem value_resolve_of_flapping (hp : p.flappingTime < Instant.latest)
    (hv : r.value = .flapping) :
    (r.resolve p now).value =
      if p.flappingFreq ≤ (r.recentFlaps p now).length then .flapping else r.plainStatus := by
  have hcount : (r.prune now p.flappingTime).oscillates p =
      decide (p.flappingFreq ≤ (r.recentFlaps p now).length) := by
    rw [oscillates, prune_eq_recentFlaps hp]
  rw [resolve_of_flapping hv, hcount]
  by_cases hf : p.flappingFreq ≤ (r.recentFlaps p now).length
  · rw [if_pos hf, if_pos (decide_eq_true hf)]
    exact hv
  · rw [if_neg hf, if_neg (by rw [decide_eq_true_iff]; exact hf)]
    exact value_settle (r.prune now p.flappingTime) now

/-! ## 3. The query and the step fit -/

/-- **A candidate always changes.** A stealthy one changes its status, and of a flapping one the oldest
oscillation is dropped. At the largest window it would be kept (`hp`), since no span is longer than
that. -/
theorem resolve_ne_of_isExpired (hp : p.flappingTime < Instant.latest)
    (he : r.isExpired now p.stealthyShow p.flappingTime = true) : r.resolve p now ≠ r := by
  intro heq
  rcases isExpired_iff.mp he with ⟨hv, -⟩ | ⟨hv, t, ht, hlt⟩
  · have hval : (r.resolve p now).value = r.plainStatus := value_resolve_of_stealthy hv
    rw [heq, hv] at hval
    exact r.plainStatus_ne_transient.1 hval.symm
  · have hval : (r.resolve p now).value = _ := value_resolve_of_flapping hp hv
    have hres : r.resolve p now = _ := resolve_of_flapping hv
    rw [heq] at hval hres
    split at hres
    · have hmem : t ∈ r.flappingTimes := List.mem_of_head? ht
      rw [congrArg StatusRecord.flappingTimes hres, prune_flappingTimes, List.mem_filter,
        inWindow_eq_false_of_lt hp hlt] at hmem
      exact Bool.noConfusion hmem.2
    · have hplain : r.value = r.plainStatus := by
        rw [congrArg StatusRecord.value hres]
        exact value_settle (r.prune now p.flappingTime) now
      exact r.plainStatus_ne_transient.2 (hplain.symm.trans hv)

/-- **What is left of a candidate is none.** Either it is transient no longer, or the oldest
oscillation that it kept lies in the window. The largest window is left out (`hp`) as in
`resolve_ne_of_isExpired`. -/
theorem isExpired_resolve (hp : p.flappingTime < Instant.latest)
    (he : r.isExpired now p.stealthyShow p.flappingTime = true) :
    (r.resolve p now).isExpired now p.stealthyShow p.flappingTime = false := by
  rw [← Bool.not_eq_true, isExpired_iff]
  rcases isExpired_iff.mp he with ⟨hv, -⟩ | ⟨hv, -⟩
  · rw [value_resolve_of_stealthy hv]
    rintro (⟨h, -⟩ | ⟨h, -⟩)
    · exact r.plainStatus_ne_transient.1 h
    · exact r.plainStatus_ne_transient.2 h
  · rw [resolve_of_flapping hv]
    split
    · rintro (⟨h, -⟩ | ⟨-, t, ht, hlt⟩)
      · exact Status.noConfusion (h.symm.trans hv)
      · have hmem : t ∈ (r.prune now p.flappingTime).flappingTimes := List.mem_of_head? ht
        rw [prune_flappingTimes, List.mem_filter] at hmem
        exact not_lt_of_inWindow hp hmem.2 hlt
    · have hplain : ((r.prune now p.flappingTime).settle ⟨r.state, now⟩).value = r.plainStatus :=
        value_settle (r.prune now p.flappingTime) now
      rw [hplain]
      rintro (⟨h, -⟩ | ⟨h, -⟩)
      · exact r.plainStatus_ne_transient.1 h
      · exact r.plainStatus_ne_transient.2 h

/-- The record that a sweep at `now` leaves. -/
def swept (r : StatusRecord) (p : Policy) (now : Instant) : StatusRecord :=
  if r.isExpired now p.stealthyShow p.flappingTime then r.resolve p now else r

/-- **No record that a sweep leaves is expired**, then or at any earlier time (`h`). The window is not
the largest (`hp`). Spans are cut off at the largest time, so every oscillation is within that one, and
a record might flap on that the query finds by where the window starts. -/
theorem isExpired_swept (hp : p.flappingTime < Instant.latest) {now' : Instant} (h : now' ≤ now) :
    (r.swept p now).isExpired now' p.stealthyShow p.flappingTime = false := by
  rw [← Bool.not_eq_true]
  intro he
  have hlate := isExpired_of_le h he
  unfold swept at hlate
  split at hlate
  · rename_i hexp
    rw [isExpired_resolve hp hexp] at hlate
    exact Bool.noConfusion hlate
  · rename_i hexp
    exact hexp hlate

end StatusRecord
end AlertStatus
