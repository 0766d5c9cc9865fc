import AlertStatus.Status.Rule

/-!
# Spans and flapping windows

The machine compares times in two ways: a span `now - since` against a threshold (`elapsed`,
`inWindow`), and, in the expiry query, a time against `now - threshold`. Both differences stop at
the ends of the 64-bit range. This file states what each of them decides in unbounded integers.
The two agree as long as the threshold is not the largest number there is, which is the one
hypothesis that the results about sweeps carry.
-/

set_option autoImplicit false

namespace AlertStatus

theorem Bounded.le_iff {lo hi : Int} {a b : Bounded lo hi} : a ≤ b ↔ a.val ≤ b.val := Iff.rfl

theorem Bounded.lt_iff {lo hi : Int} {a b : Bounded lo hi} : a < b ↔ a.val < b.val := Iff.rfl

namespace Instant

/-- The largest time. As a threshold it is one that no span exceeds. -/
def latest : Instant := ⟨9223372036854775807, by decide, by decide⟩

theorem minus_mono {a b : Instant} (c : Instant) (h : a ≤ b) : a.minus c ≤ b.minus c := by
  have hab : a.val ≤ b.val := h
  rw [Bounded.le_iff, Bounded.val_minus, Bounded.val_minus]
  omega

/-- A span that is short enough in unbounded integers is short enough. -/
theorem minus_le_of_val {a b c : Instant} (h : a.val - b.val ≤ c.val) : a.minus b ≤ c := by
  have := c.lo_le
  rw [Bounded.le_iff, Bounded.val_minus]
  omega

/-- A time that lies far enough back in unbounded integers does. -/
theorem lt_minus_of_val {t now span : Instant} (hspan : 0 ≤ span.val)
    (h : t.val + span.val < now.val) : t < now.minus span := by
  have := t.lo_le
  have := now.le_hi
  rw [Bounded.lt_iff, Bounded.val_minus]
  omega

end Instant

/-- A span within its threshold has not elapsed. -/
theorem elapsed_eq_false_iff {now since span : Instant} :
    elapsed now since span = false ↔ now.minus since ≤ span := by
  rw [elapsed, decide_eq_false_iff_not, Bounded.lt_iff, Bounded.le_iff]
  omega

namespace StatusRecord

theorem inWindow_iff {now window t : Instant} :
    inWindow now window t = true ↔ t ≤ now ∧ now.minus t ≤ window := by
  rw [inWindow, Bool.and_eq_true, decide_eq_true_iff, Bool.not_eq_true', elapsed_eq_false_iff]

/-- Below the largest threshold the window is the closed interval from `now - window` to `now`, in
unbounded integers. -/
theorem inWindow_iff_val {now window t : Instant} (hw : window < Instant.latest) :
    inWindow now window t = true ↔ t.val ≤ now.val ∧ now.val - t.val ≤ window.val := by
  have hw' : window.val < 9223372036854775807 := hw
  rw [inWindow_iff, Bounded.le_iff, Bounded.le_iff, Bounded.val_minus]
  have := now.lo_le
  have := t.le_hi
  omega

/-- **The two ways to compare agree**: a time before `now - window` is out of the window that ends
at `now`. At the largest threshold this fails, since then no span elapses. -/
theorem inWindow_eq_false_of_lt {now window t : Instant} (hw : window < Instant.latest)
    (ht : t < now.minus window) : inWindow now window t = false := by
  have hw' : window.val < 9223372036854775807 := hw
  have ht' : t.val < (now.minus window).val := ht
  rw [Bounded.val_minus] at ht'
  rw [← Bool.not_eq_true, inWindow_iff_val hw]
  have := t.lo_le
  have := now.le_hi
  omega

/-- … and one in the window is not before `now - window`. -/
theorem not_lt_of_inWindow {now window t : Instant} (hw : window < Instant.latest)
    (ht : inWindow now window t = true) : ¬ t < now.minus window := by
  intro hlt
  rw [inWindow_eq_false_of_lt hw hlt] at ht
  exact Bool.noConfusion ht

/-! ## Pruning -/

@[simp] theorem prune_value (r : StatusRecord) (now window : Instant) :
    (r.prune now window).value = r.value := rfl

theorem prune_flappingTimes (r : StatusRecord) (now window : Instant) :
    (r.prune now window).flappingTimes = r.flappingTimes.filter (inWindow now window) := rfl

theorem mem_prune {r : StatusRecord} {now window t : Instant} :
    t ∈ (r.prune now window).flappingTimes ↔
      t ∈ r.flappingTimes ∧ t ≤ now ∧ now.minus t ≤ window := by
  rw [prune_flappingTimes, List.mem_filter, inWindow_iff]

/-- Pruning twice at one time is pruning once, so the stamp after a rule drops nothing that the
rule counted. -/
theorem filter_prune (r : StatusRecord) (now window : Instant) :
    (r.prune now window).flappingTimes.filter (inWindow now window) =
      (r.prune now window).flappingTimes := by
  rw [prune_flappingTimes, List.filter_filter]
  simp only [Bool.and_self]

end StatusRecord
end AlertStatus
