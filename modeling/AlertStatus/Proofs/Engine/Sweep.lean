import AlertStatus.Engine
import AlertStatus.Proofs.Status.Expiry
import AlertStatus.Proofs.Store.Records
import AlertStatus.Proofs.Text.ByteOrder

/-!
# What a sweep does

A sweep of a store that works resolves what is expired and nothing else. The store is taken to hold
some table of records, any records, and the sweep is shown to turn that table into the one in which
each record is replaced by what resolving makes of it. Live events play no part: a record is resolved
before its event follows, and whether the event could follow is not asked.

The loop is followed by one invariant over the candidates that are left: the store still holds each
of them as it was found, and the report names those that are done.
-/

set_option autoImplicit false

namespace AlertStatus
namespace Engine

open Backend

variable {b : Backend} {m : SortedMap StatusRecord} {t : StatusTable} {p : Policy} {now : Instant}

/-! ## 1. One candidate -/

/-- A candidate that is expired when it is read again is replaced. -/
theorem runOn_expire {id : String} {r : StatusRecord} (hr : b.recordAt id = .ok (some r))
    (he : r.isExpired now p.stealthyShow p.flappingTime = true) (hne : r.resolve p now ≠ r) :
    ((⟨t, p⟩ : Tracker).expire id now).runOn b =
      (.ok (some (r.resolve p now)), ((Store.putStatus id (r.resolve p now)).runOn b).2) := by
  unfold Tracker.expire
  rw [Action.runOn_bind, runOn_trackerGet_of_ok hr]
  dsimp only
  rw [if_pos ⟨he, hne⟩, Action.runOn_bind, runOn_trackerPut]
  rfl

/-- The live event follows its record or does not; the records stay as they are. -/
theorem sameStatuses_follow (r : StatusRecord) (b : Backend) : b.SameStatuses (follow r b) := by
  unfold follow
  cases r.routingKey with
  | none => exact SameStatuses.refl b
  | some rk => exact sameStatuses_updateEvent b rk _

/-- **One candidate is resolved**: its record is replaced, its event follows, and the report names it.
Without `hp` the record might be left as it was, and then it is not reported. -/
theorem sweepOne_of_recordAt {id : String} {r : StatusRecord} (hp : p.flappingTime < Instant.latest)
    (hr : b.recordAt id = .ok (some r))
    (he : r.isExpired now p.stealthyShow p.flappingTime = true) (report : SweepReport) :
    (Engine.of t p).sweepOne now (report, b) id =
      ({ report with resolved := report.resolved ++ [id] },
        follow (r.resolve p now) ((Store.putStatus id (r.resolve p now)).runOn b).2) := by
  have hrun : ((Engine.of t p).tracker.expire id now).runOn b = _ :=
    runOn_expire hr he (StatusRecord.resolve_ne_of_isExpired hp he)
  unfold sweepOne
  dsimp only
  rw [hrun]

/-- In a table of records, it is the candidate's record that is replaced. -/
theorem sweepOne_of_expired {id : String} {r : StatusRecord} (hp : p.flappingTime < Instant.latest)
    (hb : b.Shows m) (hr : m.get? id = some r)
    (he : r.isExpired now p.stealthyShow p.flappingTime = true) (report : SweepReport) :
    ∃ b', (Engine.of t p).sweepOne now (report, b) id =
        ({ report with resolved := report.resolved ++ [id] }, b') ∧
      b'.Shows (m.insert id (r.swept p now)) := by
  have hread : b.recordAt id = .ok (some r) := by rw [hb.recordAt, hr]
  have hswept : r.swept p now = r.resolve p now := if_pos he
  refine ⟨_, sweepOne_of_recordAt hp hread he report, ?_⟩
  rw [hswept]
  exact (hb.putStatus id _).of_sameStatuses (sameStatuses_follow _ _)

/-! ## 2. All candidates -/

/-- **The loop**: when the candidates are held as they were found (`hm`), each of them is resolved. No
candidate comes twice (`hnodup`), so this is still so of the others after each of them. -/
theorem foldl_sweepOne (hp : p.flappingTime < Instant.latest) (l : List (String × StatusRecord))
    (hnodup : (l.map Prod.fst).Nodup)
    (he : ∀ e ∈ l, e.2.isExpired now p.stealthyShow p.flappingTime = true)
    {b : Backend} {m : SortedMap StatusRecord} (hb : b.Shows m)
    (hm : ∀ e ∈ l, m.get? e.1 = some e.2) (report : SweepReport) :
    ∃ b', (l.map Prod.fst).foldl ((Engine.of t p).sweepOne now) (report, b) =
        ({ report with resolved := report.resolved ++ l.map Prod.fst }, b') ∧
      b'.Shows ((l.map fun e => (e.1, e.2.swept p now)).foldl (fun m e => m.insert e.1 e.2) m) := by
  induction l generalizing b m report with
  | nil =>
    refine ⟨b, ?_, hb⟩
    rw [List.map_nil, List.append_nil]
    rfl
  | cons e l ih =>
    obtain ⟨id, r⟩ := e
    obtain ⟨hid, hl⟩ := List.nodup_cons.mp hnodup
    obtain ⟨b₁, hstep, hb₁⟩ := sweepOne_of_expired hp hb
      (hm (id, r) List.mem_cons_self) (he (id, r) List.mem_cons_self) report
    -- The ids are distinct, so the later candidates are still held as they were found.
    have hm₁ : ∀ e ∈ l, (m.insert id (r.swept p now)).get? e.1 = some e.2 :=
      SortedMap.get?_insert_of_not_mem hid (fun e hel => hm e (List.mem_cons_of_mem _ hel)) _
    obtain ⟨b₂, hrest, hb₂⟩ := ih hl (fun e hel => he e (List.mem_cons_of_mem _ hel)) hb₁ hm₁
      { report with resolved := report.resolved ++ [id] }
    refine ⟨b₂, ?_, hb₂⟩
    rw [List.map_cons, List.foldl_cons, hstep, hrest, List.append_assoc]
    rfl

/-- What the table holds after some of its records were replaced. -/
theorem get?_foldl_swept (q : String → StatusRecord → Bool) (m : SortedMap StatusRecord) (k : String) :
    (((m.entries.filter fun e => q e.1 e.2).map fun e => (e.1, e.2.swept p now)).foldl
        (fun m e => m.insert e.1 e.2) m).get? k =
      (m.get? k).map fun r => if q k r then r.swept p now else r := by
  let found : SortedMap StatusRecord := (m.filter q).map fun r => r.swept p now
  show (found.entries.foldl (fun m e => m.insert e.1 e.2) m).get? k = _
  rw [SortedMap.get?_foldl_insert found.nodup_keys, SortedMap.lookup_entries, SortedMap.get?_map,
    SortedMap.get?_filter]
  cases hr : m.get? k with
  | none => rfl
  | some r =>
    rw [Option.filter_some, Option.map_some]
    split <;> rfl

/-- Replacing the candidates alone is replacing every record, since the others are left as they
are by definition. -/
theorem foldl_swept_eq_map (m : SortedMap StatusRecord) :
    ((m.entries.filter fun e => e.2.isExpired now p.stealthyShow p.flappingTime).map
        fun e => (e.1, e.2.swept p now)).foldl (fun m e => m.insert e.1 e.2) m =
      m.map fun r => r.swept p now := by
  refine SortedMap.ext_get? fun k => ?_
  rw [get?_foldl_swept fun _ r => r.isExpired now p.stealthyShow p.flappingTime, SortedMap.get?_map]
  refine congrArg (Option.map · (m.get? k)) (funext fun r => ?_)
  unfold StatusRecord.swept
  split <;> rfl

/-! ## 3. The sweep -/

/-- What a sweep makes of a record: one that is not expired is kept; a stealthy one settles by its
state; a flapping one flaps on only with enough oscillations in the window that ends at the time of the
sweep, counted in unbounded integers. It says what the status becomes, and nothing of how it is
computed. -/
structure Resolution (p : Policy) (now : Instant) (r r' : StatusRecord) : Prop where
  kept : r.isExpired now p.stealthyShow p.flappingTime = false → r' = r
  stealthy : r.isExpired now p.stealthyShow p.flappingTime = true → r.value = .stealthy →
    r'.value = if r.state = .ok then .off else .ongoing
  flapping : r.isExpired now p.stealthyShow p.flappingTime = true → r.value = .flapping →
    r'.value =
      if p.flappingFreq ≤ (r.flappingTimes.filter fun t =>
          t.val ≤ now.val ∧ now.val - t.val ≤ p.flappingTime.val).length then .flapping
      else if r.state = .ok then .off else .ongoing

theorem resolution_swept (hp : p.flappingTime < Instant.latest) (r : StatusRecord) :
    Resolution p now r (r.swept p now) := by
  unfold StatusRecord.swept
  refine ⟨fun he => ?_, fun he hv => ?_, fun he hv => ?_⟩
  · rw [he, if_neg Bool.false_ne_true]
  · rw [if_pos he]
    exact StatusRecord.value_resolve_of_stealthy hv
  · rw [if_pos he]
    exact StatusRecord.value_resolve_of_flapping hp hv

theorem runOn_findExpired (hb : b.Shows m) (now : Instant) :
    ((⟨t, p⟩ : Tracker).findExpired now).runOn b =
      (.ok (m.entries.filter fun e => e.2.isExpired now p.stealthyShow p.flappingTime), b) := by
  rw [Tracker.findExpired, Action.runOn_rename, hb.runOn_expiredStatuses]
  rfl

/-- A sweep of a table of records resolves each of them. -/
theorem shows_sweep (hp : p.flappingTime < Instant.latest) (hb : b.Shows m) :
    ((Engine.of t p).sweep now b).2.Shows (m.map fun r => r.swept p now) := by
  let found := m.entries.filter fun e => e.2.isExpired now p.stealthyShow p.flappingTime
  have hsub : List.Sublist found m.entries := List.filter_sublist
  have hnodup : (found.map Prod.fst).Nodup := m.nodup_keys.sublist (hsub.map Prod.fst)
  obtain ⟨b', hloop, hb'⟩ := foldl_sweepOne hp found hnodup (fun e he => (List.mem_filter.mp he).2) hb
    (fun e he => SortedMap.get?_eq_some_iff.mpr (hsub.subset he))
    { SweepReport.empty with examined := found.length }
  have hfind : ((Engine.of t p).tracker.findExpired now).runOn b = (.ok found, b) :=
    runOn_findExpired hb now
  unfold sweep
  rw [hfind]
  dsimp only
  rw [hloop, ← foldl_swept_eq_map]
  exact hb'

/-- **A sweep of a store that works is exact and complete.** Over any table of records, it reports the
expired ones in the order of the bytes of their ids and fails at none, it leaves the table in which
each record is resolved, and no record of that table is expired, at the time of the sweep or before.

The flapping window is not the largest number (`hp`). No span is longer than that, so a record that the
query selects would keep all its oscillations and be selected again. The store holds the records `m` as
it writes them (`hb`), which says nothing in memory; `resolved_iff_legible` is about tables with other
rows. The records need not be coherent. -/
theorem sweep_exact (t : StatusTable) (p : Policy) (hp : p.flappingTime < Instant.latest)
    (b : Backend) (m : SortedMap StatusRecord) (hb : b.Shows m) (now : Instant) :
    let found := m.entries.filter fun e => e.2.isExpired now p.stealthyShow p.flappingTime
    let after := (Engine.of t p).sweep now b
    after.1 = ⟨found.length, found.map Prod.fst, 0⟩ ∧
      (after.1.resolved.map encodeUtf8).Pairwise (· < ·) ∧
      (∃ m' : SortedMap StatusRecord, after.2.Shows m' ∧
        ∀ id, (m.get? id = none → m'.get? id = none) ∧
          ∀ r, m.get? id = some r → ∃ r', m'.get? id = some r' ∧ Resolution p now r r') ∧
      ∀ now' ≤ now, ((⟨t, p⟩ : Tracker).findExpired now').runOn after.2 = (.ok [], after.2) := by
  intro found after
  have hsub : List.Sublist found m.entries := List.filter_sublist
  have hnodup : (found.map Prod.fst).Nodup := m.nodup_keys.sublist (hsub.map Prod.fst)
  have hexp : ∀ e ∈ found, e.2.isExpired now p.stealthyShow p.flappingTime = true :=
    fun e he => (List.mem_filter.mp he).2
  have hheld : ∀ e ∈ found, m.get? e.1 = some e.2 :=
    fun e he => SortedMap.get?_eq_some_iff.mpr (hsub.subset he)
  -- What is found is held, each id once, and that is all the loop asks for.
  obtain ⟨b', hloop, hb'⟩ := foldl_sweepOne hp found hnodup hexp hb hheld
    { SweepReport.empty with examined := found.length }
  have hafter : after = (⟨found.length, found.map Prod.fst, 0⟩, b') := by
    show (Engine.of t p).sweep now b = _
    unfold sweep
    have hfind : ((Engine.of t p).tracker.findExpired now).runOn b = (.ok found, b) :=
      runOn_findExpired hb now
    rw [hfind]
    exact hloop
  rw [foldl_swept_eq_map] at hb'
  rw [hafter]
  refine ⟨rfl, ?_, ⟨_, hb', fun id => ?_⟩, fun now' hle => ?_⟩
  · refine List.pairwise_map.mpr (List.pairwise_map.mpr ?_)
    exact (m.sorted.sublist hsub).imp fun h => encodeUtf8_lt h
  · rw [SortedMap.get?_map]
    refine ⟨fun hnone => by rw [hnone]; rfl, fun r hr => ⟨r.swept p now, by rw [hr]; rfl, ?_⟩⟩
    exact resolution_swept hp r
  · rw [runOn_findExpired hb']
    have hnone : (m.map fun r => r.swept p now).entries.filter
        (fun e => e.2.isExpired now' p.stealthyShow p.flappingTime) = [] := by
      refine List.filter_eq_nil_iff.mpr fun e he => ?_
      obtain ⟨e₀, -, rfl⟩ := List.mem_map.mp he
      rw [StatusRecord.isExpired_swept hp hle]
      exact Bool.false_ne_true
    rw [hnone]

/-- One entity flaps, with an old and a recent oscillation, and one is stealthy. -/
theorem sweep_exact_two :
    ((Engine.of .standard .standard).sweep ⟨5000, by decide, by decide⟩
      (Backend.memory
        { MemoryStore.empty with
          statuses := SortedMap.ofList
            [("/a", { StatusRecord.first ⟨2, by decide, by decide⟩ ⟨4990, by decide, by decide⟩ with
                value := .flapping
                flappingTimes :=
                  [⟨100, by decide, by decide⟩, ⟨4990, by decide, by decide⟩] }),
              ("/b", { StatusRecord.first .ok ⟨1000, by decide, by decide⟩ with
                value := .stealthy
                stealthyTime := some ⟨900, by decide, by decide⟩ })] })).1 =
      ⟨2, ["/a", "/b"], 0⟩ :=
  (sweep_exact .standard .standard (by decide) _ _ (shows_memory _) _).1.trans (by decide)

end Engine
end AlertStatus
