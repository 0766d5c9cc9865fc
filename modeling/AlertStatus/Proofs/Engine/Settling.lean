import AlertStatus.Proofs.Engine.Lockstep
import AlertStatus.Proofs.Engine.Sweep
import AlertStatus.Proofs.Status.Oscillation
import AlertStatus.Proofs.Store.Twins

/-!
# No status is transient for ever

A sweep can only resolve what the expiry query gives it, and the query looks at one field for each of the
two transient statuses: the start of a quick recovery, and the oldest oscillation. A record without that
field would never be found again. That there is none is a matter of coherence, and so of every way in which
a record came about.

Each transient record has a deadline (`Deadline`), which is the exact sum of a time that it holds and a
threshold. From the second after it on, the query finds the record, in either kind of store, and a sweep
settles it for good: the oldest oscillation is out of the window because the newest one is.
-/

set_option autoImplicit false

namespace AlertStatus
namespace StatusRecord

variable {p : Policy} {r : StatusRecord} {now : Instant} {d : Int}

/-! ## 1. Deadlines -/

/-- The last second in which a record may keep a transient status, whoever checks it no more. It is an
exact sum, which may lie beyond the largest time; then no sweep comes after it. -/
inductive Deadline (p : Policy) (r : StatusRecord) : Int → Prop where
  | stealthy {since : Instant} (hv : r.value = .stealthy) (hs : r.stealthyTime = some since) :
      Deadline p r (since.val + p.stealthyShow.val)
  | flapping {last : Instant} (hv : r.value = .flapping) (hl : r.flappingTimes.getLast? = some last) :
      Deadline p r (last.val + p.flappingTime.val)

/-- **Every transient record has a deadline.** The threshold is one at least (`hfreq`). With none, an
entity could flap without any oscillation, and nothing would tell since when. -/
theorem Coherent.exists_deadline (h : r.Coherent p) (hfreq : 1 ≤ p.flappingFreq)
    (hv : r.value = .stealthy ∨ r.value = .flapping) : ∃ d, r.Deadline p d := by
  rcases hv with hv | hv
  · obtain ⟨since, hs, -, -⟩ := h.stealthy hv
    exact ⟨_, .stealthy hv hs⟩
  · obtain ⟨-, -, henough⟩ := h.flapping hv
    have hne : r.flappingTimes ≠ [] := by
      intro hnil
      rw [hnil, List.length_nil] at henough
      omega
    exact ⟨_, .flapping hv (List.getLast?_eq_some_getLast hne)⟩

/-- The oscillations are in order, so all of them are past when the last one is. -/
theorem Coherent.le_last (h : r.Coherent p) {last : Instant}
    (hl : r.flappingTimes.getLast? = some last) : ∀ t ∈ r.flappingTimes, t.val ≤ last.val := by
  obtain ⟨earlier, heq⟩ := List.getLast?_eq_some_iff.mp hl
  have hordered := h.ordered
  rw [heq, List.pairwise_append] at hordered
  intro t ht
  rw [heq, List.mem_append, List.mem_singleton] at ht
  rcases ht with ht | rfl
  · exact hordered.2.2 t ht last List.mem_cons_self
  · exact Int.le_refl _

/-- **After its deadline a record is expired.** Neither threshold is negative (`hshow`, `hwindow`), so
the start of a window can be cut off at the smallest time only, before which there is nothing to be
found. -/
theorem Coherent.isExpired_of_deadline (h : r.Coherent p) (hshow : 0 ≤ p.stealthyShow.val)
    (hwindow : 0 ≤ p.flappingTime.val) (hd : r.Deadline p d) (hnow : d < now.val) :
    r.isExpired now p.stealthyShow p.flappingTime = true := by
  rw [isExpired_iff]
  cases hd with
  | stealthy hv hs => exact Or.inl ⟨hv, _, hs, Instant.lt_minus_of_val hshow hnow⟩
  | @flapping last hv hl =>
    obtain ⟨earlier, heq⟩ := List.getLast?_eq_some_iff.mp hl
    have hne : r.flappingTimes ≠ [] := by simp [heq]
    have holdest : (r.flappingTimes.head hne).val ≤ last.val := h.le_last hl _ (List.head_mem hne)
    exact Or.inr ⟨hv, _, List.head?_eq_some_head hne,
      Instant.lt_minus_of_val hwindow (by omega)⟩

/-- **Resolving it then settles it by its state.** None of its oscillations is in the window any more,
and a threshold of one or more is then not reached (`hfreq`). At the largest window there is no such
time (`hlatest`): nothing ever leaves it. -/
theorem Coherent.value_resolve_of_deadline (h : r.Coherent p) (hfreq : 1 ≤ p.flappingFreq)
    (hlatest : p.flappingTime < Instant.latest) (hd : r.Deadline p d) (hnow : d < now.val) :
    (r.resolve p now).value = if r.state = .ok then .off else .ongoing := by
  cases hd with
  | stealthy hv => exact value_resolve_of_stealthy hv
  | @flapping last hv hl =>
    have hnone : r.recentFlaps p now = [] := by
      refine List.filter_eq_nil_iff.mpr fun t ht => ?_
      have hle := h.le_last hl t ht
      rw [decide_eq_true_iff]
      omega
    rw [value_resolve_of_flapping hlatest hv, hnone, if_neg (by rw [List.length_nil]; omega)]
    rfl

end StatusRecord

/-! ## 2. Stores of the program -/

namespace Backend

/-- Every status of the store was written as a record. Stores that the operations have filled are so
(`ensures_written`), and every store in memory is. -/
def Written (b : Backend) : Prop := ∃ m, b.Shows m

/-- The operations of a store leave none that was not. -/
theorem linked_written : Linked.Whole (fun b b' : Backend => b = b' ∧ b.Written) fun _ => True := by
  have hsame {α : Type} {x : Action Backend StoreError α} {Q : α → Prop} (hQ : ∀ a, Q a)
      (hx : ∀ b : Backend, b.SameStatuses (x.runOn b).2) :
      Action.Matches (fun b b' : Backend => b = b' ∧ b.Written) x x Q := by
    refine Action.Ensures.matches fun b hb => ⟨?_, fun a _ => hQ a⟩
    obtain ⟨m, hm⟩ := hb
    exact ⟨m, hm.of_sameStatuses (hx b)⟩
  refine ⟨⟨?_, ?_, ?_, ?_, ?_, ?_⟩, ?_, ?_, ?_⟩
  · intro id _
    refine hsame (fun _ => trivial) fun b => ?_
    rw [runOn_getStatus]
    exact .refl b
  · intro id r _
    refine Action.Ensures.matches fun b ⟨m, hm⟩ => ⟨?_, fun _ _ => trivial⟩
    exact ⟨m.insert id r, hm.putStatus id r⟩
  · intro rk _
    refine hsame (fun _ _ _ _ _ _ => trivial) fun b => ?_
    cases b <;> rfl
  · exact fun rk e _ _ => hsame (fun _ => trivial) fun b => sameStatuses_putEvent b rk e
  · exact fun rk change _ _ => hsame (fun _ => trivial) fun b => sameStatuses_updateEvent b rk change
  · exact fun rk t e _ _ => hsame (fun _ => trivial) fun b => sameStatuses_appendLog b _
  · intro x y
    refine hsame (fun _ => trivial) fun b => ?_
    cases b <;> rfl
  · exact fun entry _ => hsame (fun _ => trivial) fun b => sameStatuses_appendLog b entry
  · intro rk
    refine hsame (fun _ => trivial) fun b => ?_
    cases b <;> rfl

end Backend

namespace Engine

open Backend

variable {b : Backend} {m : SortedMap StatusRecord} {t : StatusTable} {p : Policy} {now : Instant}

/-! ## 3. The sweep -/

/-- **A sweep after its deadline finds a record and settles it.** It is found by the query for times
before `now - stealthyShow` or `now - flappingTime`. These windows are not negative (`hshow`,
`hwindow`), since the start of a negative one could be cut off at the largest time, and a record of
that time would be missed. -/
theorem sweep_of_deadline {r : StatusRecord} {id : String} {d : Int} (hfreq : 1 ≤ p.flappingFreq)
    (hshow : 0 ≤ p.stealthyShow.val) (hwindow : 0 ≤ p.flappingTime.val)
    (hlatest : p.flappingTime < Instant.latest) (hb : b.Shows m) (hr : m.get? id = some r)
    (hcoh : r.Coherent p) (hd : r.Deadline p d) (hnow : d < now.val) :
    (∃ found, ((⟨t, p⟩ : Tracker).findExpired now).runOn b = (.ok found, b) ∧ (id, r) ∈ found) ∧
      ∃ r', ((Engine.of t p).sweep now b).2.recordAt id = .ok (some r') ∧
        r'.value = if r.state = .ok then .off else .ongoing := by
  have hexpired := hcoh.isExpired_of_deadline hshow hwindow hd hnow
  refine ⟨⟨_, runOn_findExpired hb now,
    List.mem_filter.mpr ⟨SortedMap.get?_eq_some_iff.mp hr, hexpired⟩⟩, r.resolve p now, ?_,
    hcoh.value_resolve_of_deadline hfreq hlatest hd hnow⟩
  have hswept : r.swept p now = r.resolve p now := if_pos hexpired
  rw [(shows_sweep hlatest hb).recordAt, SortedMap.get?_map, hr, ← hswept]
  rfl

end Engine

namespace Tracker

variable {t : Tracker} {p : Policy}

/-! ## 4. Runs -/

/-- A command behind a plan of faults keeps a store of the program one. -/
theorem ensures_written (t : Tracker) (c : TrackerCommand) :
    (c.run t : Action SessionStore StatusError _).Ensures (fun s => s.store.Written) fun _ => True := by
  intro s hs
  obtain ⟨-, ⟨-, -, hwritten⟩, -⟩ := Backend.linked_written.guarded.tracker t c s s ⟨rfl, rfl, hs⟩
  exact ⟨hwritten, fun _ _ => trivial⟩

/-- **No status is transient for ever.** A run of the tracker, of any commands at any times and behind
any plan of faults, leaves an entity that had no record at first with a record that has a deadline if
it is transient. When it is past, the expiry query finds the record, and a sweep without faults settles
it.

The entity has no record at first (`hs`), as in `coherent_of_run`: a transient record from elsewhere
need not hold the time that the query looks at. The other rows were written as records (`hwritten`), as
one that cannot be read would fail the query for all of them. The bounds on the thresholds exclude an
entity that flaps without oscillations (`hfreq`), windows that start after the latest time (`hshow`,
`hwindow`), and a window that no span is longer than (`hlatest`), in which a sweep would drop
nothing. -/
theorem settles_of_run (p : Policy) (hfreq : 1 ≤ p.flappingFreq) (hshow : 0 ≤ p.stealthyShow.val)
    (hwindow : 0 ≤ p.flappingTime.val) (hlatest : p.flappingTime < Instant.latest) (id : String)
    (run : List TrackerCommand) (s : SessionStore) (hwritten : s.store.Written)
    (hs : s.store.recordAt id = .ok none) :
    let b := (Action.runAll (TrackerCommand.run ⟨.standard, p⟩) run s).store
    ∃ o, b.recordAt id = .ok o ∧ ∀ r, o = some r →
      (r.value = .stealthy ∨ r.value = .flapping → ∃ d, r.Deadline p d) ∧
        ∀ (d : Int) (now : Instant), r.Deadline p d → d < now.val →
          (∃ found, ((⟨.standard, p⟩ : Tracker).findExpired now).runOn b = (.ok found, b) ∧
            (id, r) ∈ found) ∧
          ∃ r', ((Engine.of .standard p).sweep now b).2.recordAt id = .ok (some r') ∧
            r'.value = if r.state = .ok then .off else .ongoing := by
  intro b
  have htracked : Tracked p id s := ⟨none, hs, fun r hr => nomatch hr⟩
  obtain ⟨o, ho, hcoh⟩ : b.Tracks p id :=
    Action.runAll_ensures run (fun c _ => ensures_run c) htracked
  obtain ⟨m, hm⟩ : b.Written := Action.runAll_ensures run (fun c _ => ensures_written _ c) hwritten
  refine ⟨o, ho, fun r hr => ⟨(hcoh r hr).exists_deadline hfreq, fun d now hd hnow => ?_⟩⟩
  have hget : m.get? id = some r := by
    rw [hm.recordAt, hr] at ho
    exact Except.ok.inj ho
  exact Engine.sweep_of_deadline hfreq hshow hwindow hlatest hm hget (hcoh r hr) hd hnow

/-- What is recorded of a host that flaps: the last oscillation is as old as the record. -/
def flappingRecord : StatusRecord :=
  { StatusRecord.first (CheckState.ok.nearest 3) (Instant.latest.nearest 1050) with
    value := .flapping
    pendingTime := some (Instant.latest.nearest 1040)
    flappingTimes := [Instant.latest.nearest 1040, Instant.latest.nearest 1050]
    routingKey := some "h" }

/-- In the first second after the window of the last oscillation the host is ongoing again. -/
theorem settles_of_run_unsteadyHost :
    let p : Policy := { Policy.standard with flappingFreq := 2 }
    let s := FaultyStore.of (Backend.memory .empty)
    let b := (Action.runAll (TrackerCommand.run ⟨.standard, p⟩) unsteadyHost s).store
    let now := Instant.latest.nearest 4651
    1 ≤ p.flappingFreq ∧ 0 ≤ p.stealthyShow.val ∧ 0 ≤ p.flappingTime.val ∧
      p.flappingTime < Instant.latest ∧ s.store.Written ∧ s.store.recordAt "/host" = .ok none ∧
      b.recordAt "/host" = .ok (some flappingRecord) ∧ flappingRecord.Deadline p (1050 + 3600) ∧
      1050 + 3600 < now.val ∧
      (∃ found, ((⟨.standard, p⟩ : Tracker).findExpired now).runOn b = (.ok found, b) ∧
        ("/host", flappingRecord) ∈ found) ∧
      ∃ r', ((Engine.of .standard p).sweep now b).2.recordAt "/host" = .ok (some r') ∧
        r'.value = .ongoing := by
  intro p s b now
  have hwritten : s.store.Written := ⟨.empty, Backend.shows_memory .empty⟩
  have hrecord : b.recordAt "/host" = .ok (some flappingRecord) := by decide +kernel
  have hlast : flappingRecord.flappingTimes.getLast? = some (Instant.latest.nearest 1050) := rfl
  have hdeadline : flappingRecord.Deadline p (1050 + 3600) := .flapping rfl hlast
  obtain ⟨o, ho, hsettles⟩ := settles_of_run p (by decide) (by decide) (by decide) (by decide) "/host"
    unsteadyHost s hwritten rfl
  obtain rfl : o = some flappingRecord := Except.ok.inj (ho.symm.trans hrecord)
  obtain ⟨hfound, hsettled⟩ := (hsettles _ rfl).2 _ now hdeadline (by decide)
  exact ⟨by decide, by decide, by decide, by decide, hwritten, rfl, hrecord, hdeadline, by decide,
    hfound, hsettled⟩

end Tracker
end AlertStatus
