import AlertStatus.Proofs.Data.Lists
import AlertStatus.Proofs.Engine.Steps
import AlertStatus.Proofs.Engine.Sweep

/-!
# Sweeps of tables with unreadable rows

The rows of a status table may have been written by anyone: their texts need not be records, and
their columns need not go with their texts. The expiry query selects rows by their columns and then
reads the texts of all that it selected, so one text that is no record fails the query, and with it
the whole sweep. As long as every selected row can be read (`TableStore.Legible`), the sweep gets to
each of them, whatever the rows that were not selected hold.

The loop is followed as in the sweep of a working store, with less in hand: of the candidates it is
only known what is read for them, not that their rows were written by the store.
-/

set_option autoImplicit false

namespace AlertStatus

/-! ## 1. The expiry query over any rows -/

namespace TableStore

variable {s : TableStore} {stealthyBefore flappingBefore : Instant}
  {found : List (String × StatusRecord)}

/-- Every row that the expiry query selects holds a record. Rows are selected by their columns, so this
asks nothing of the texts of all others. -/
def Legible (s : TableStore) (stealthyBefore flappingBefore : Instant) : Prop :=
  ∀ e ∈ s.statuses.entries, e.2.outlasts stealthyBefore flappingBefore = true →
    ∃ r : StatusRecord, (decode e.2.doc : Except StoreError StatusRecord) = .ok r

theorem decode_cell_eq_ok_iff {e : String × StatusRow} {c : String × StatusRecord} :
    ((decode e.2.doc : Except StoreError StatusRecord).map fun r => (e.1, r)) = .ok c ↔
      c.1 = e.1 ∧ decode e.2.doc = .ok c.2 := by
  obtain ⟨id, r⟩ := c
  cases (decode e.2.doc : Except StoreError StatusRecord) with
  | error cause => exact ⟨nofun, nofun⟩
  | ok r' =>
    show Except.ok (e.1, r') = Except.ok (id, r) ↔ _
    simp [eq_comm]

/-- **The query gives something exactly when all that it selects can be read.** -/
theorem exists_expired_iff :
    (∃ found, s.expired stealthyBefore flappingBefore = .ok found) ↔
      s.Legible stealthyBefore flappingBefore := by
  have hcell (e : String × StatusRow) :
      (∃ c, ((decode e.2.doc : Except StoreError StatusRecord).map fun r => (e.1, r)) = .ok c) ↔
        ∃ r : StatusRecord, (decode e.2.doc : Except StoreError StatusRecord) = .ok r := by
    simp only [decode_cell_eq_ok_iff]
    exact ⟨fun ⟨c, _, h⟩ => ⟨c.2, h⟩, fun ⟨r, h⟩ => ⟨(e.1, r), rfl, h⟩⟩
  rw [expired, exists_mapM_eq_ok_iff]
  simp only [List.mem_filter, and_imp, hcell]
  rfl

theorem recordAt_of_decode {id : String} {row : StatusRow} {r : StatusRecord}
    (hrow : s.statuses.get? id = some row) (hdoc : decode row.doc = .ok r) :
    (Backend.tables s).recordAt id = .ok (some r) := by
  show decodeOption ((s.statuses.get? id).map StatusRow.doc) = _
  rw [hrow]
  show (decode row.doc).map some = _
  rw [hdoc]
  rfl

variable (h : s.expired stealthyBefore flappingBefore = .ok found)
include h

theorem mem_expired_iff {c : String × StatusRecord} :
    c ∈ found ↔ ∃ row, s.statuses.get? c.1 = some row ∧
      row.outlasts stealthyBefore flappingBefore = true ∧ decode row.doc = .ok c.2 := by
  rw [mem_of_mapM_eq_ok h]
  simp only [List.mem_filter, decode_cell_eq_ok_iff]
  constructor
  · rintro ⟨⟨id, row⟩, ⟨hmem, hsel⟩, rfl, hdoc⟩
    exact ⟨row, SortedMap.get?_eq_some_iff.mpr hmem, hsel, hdoc⟩
  · rintro ⟨row, hrow, hsel, hdoc⟩
    exact ⟨(c.1, row), ⟨SortedMap.get?_eq_some_iff.mp hrow, hsel⟩, rfl, hdoc⟩

theorem recordAt_of_mem_expired {c : String × StatusRecord} (hc : c ∈ found) :
    (Backend.tables s).recordAt c.1 = .ok (some c.2) := by
  obtain ⟨row, hrow, -, hdoc⟩ := (mem_expired_iff h).mp hc
  exact recordAt_of_decode hrow hdoc

theorem nodup_expired : (found.map Prod.fst).Nodup := by
  rw [map_of_mapM_eq_ok (fun _ _ hc => (decode_cell_eq_ok_iff.mp hc).1) h]
  exact s.statuses.nodup_keys.sublist (List.filter_sublist.map Prod.fst)

/-- A row that the store wrote for an expired record is a candidate. -/
theorem mem_expired_of_written {id : String} {r : StatusRecord}
    (hr : s.statuses.get? id = some (.of r))
    (he : r.outlasts stealthyBefore flappingBefore = true) : (id, r) ∈ found :=
  (mem_expired_iff h).mpr
    ⟨.of r, hr, (StatusRow.outlasts_of r _ _).trans he, decode_of r⟩

end TableStore

/-! ## 2. The sweep over any rows -/

namespace Engine

open Backend

variable {b : Backend} {t : StatusTable} {p : Policy} {now : Instant}

/-- A record that is not expired when it is read again is left alone. Columns that do not go with their
text can make it a candidate, and so it is neither resolved nor counted as failed. -/
theorem sweepOne_of_kept {id : String} {r : StatusRecord} (hr : b.recordAt id = .ok (some r))
    (he : r.isExpired now p.stealthyShow p.flappingTime = false) (report : SweepReport) :
    (Engine.of t p).sweepOne now (report, b) id = (report, b) := by
  have hrun : ((Engine.of t p).tracker.expire id now).runOn b = (.ok none, b) := by
    unfold Tracker.expire
    rw [Action.runOn_bind, runOn_trackerGet_of_ok hr]
    dsimp only
    rw [if_neg fun h => Bool.noConfusion (he.symm.trans h.1)]
    rfl
  unfold sweepOne
  dsimp only
  rw [hrun]

/-- The entities of candidates whose records are expired when they are read again. -/
def overdue (p : Policy) (now : Instant) (found : List (String × StatusRecord)) : List String :=
  (found.filter fun c => c.2.isExpired now p.stealthyShow p.flappingTime).map Prod.fst

/-- What one candidate does to the report, to its own record and to the others. -/
theorem sweepOne_of_read (hp : p.flappingTime < Instant.latest) {c : String × StatusRecord}
    (hc : b.recordAt c.1 = .ok (some c.2)) (report : SweepReport) :
    ∃ b', (Engine.of t p).sweepOne now (report, b) c.1 =
        ({ report with resolved := report.resolved ++ overdue p now [c] }, b') ∧
      ∀ j, b'.recordAt j = if j = c.1 then .ok (some (c.2.swept p now)) else b.recordAt j := by
  cases he : c.2.isExpired now p.stealthyShow p.flappingTime with
  | true =>
    have hdue : overdue p now [c] = [c.1] := by
      rw [overdue, List.filter_singleton, he]
      rfl
    have hswept : c.2.swept p now = c.2.resolve p now := if_pos he
    rw [hdue, hswept]
    refine ⟨_, sweepOne_of_recordAt hp hc he report, fun j => ?_⟩
    rw [(sameStatuses_follow _ _).recordAt, recordAt_putStatus]
  | false =>
    have hdue : overdue p now [c] = [] := by
      rw [overdue, List.filter_singleton, he]
      rfl
    have hswept : c.2.swept p now = c.2 := if_neg (by rw [he]; exact Bool.false_ne_true)
    rw [hdue, hswept, List.append_nil]
    refine ⟨b, sweepOne_of_kept hc he report, fun j => ?_⟩
    split
    · rename_i hj
      rw [hj, hc]
    · rfl

/-- **The loop over any candidates**: each of them is taken as it was read, since the others do not
touch its record. -/
theorem foldl_sweepOne_of_read (hp : p.flappingTime < Instant.latest)
    (l : List (String × StatusRecord)) (hnodup : (l.map Prod.fst).Nodup) {b : Backend}
    (hl : ∀ c ∈ l, b.recordAt c.1 = .ok (some c.2)) (report : SweepReport) :
    ∃ b', (l.map Prod.fst).foldl ((Engine.of t p).sweepOne now) (report, b) =
        ({ report with resolved := report.resolved ++ overdue p now l }, b') ∧
      (∀ c ∈ l, b'.recordAt c.1 = .ok (some (c.2.swept p now))) ∧
      ∀ j ∉ l.map Prod.fst, b'.recordAt j = b.recordAt j := by
  induction l generalizing b report with
  | nil =>
    refine ⟨b, ?_, List.forall_mem_nil _, fun _ _ => rfl⟩
    show (report, b) = ({ report with resolved := report.resolved ++ [] }, b)
    rw [List.append_nil]
  | cons c l ih =>
    obtain ⟨hc, hnodup⟩ := List.nodup_cons.mp hnodup
    obtain ⟨hread, hl⟩ := List.forall_mem_cons.mp hl
    obtain ⟨b₁, hstep, hb₁⟩ := sweepOne_of_read (t := t) hp hread report
    have hframe : ∀ j, j ≠ c.1 → b₁.recordAt j = b.recordAt j :=
      fun j hj => (hb₁ j).trans (if_neg hj)
    have hl₁ : ∀ d ∈ l, b₁.recordAt d.1 = .ok (some d.2) := fun d hd => by
      rw [hframe d.1 (fun heq => hc (heq ▸ List.mem_map_of_mem hd)), hl d hd]
    obtain ⟨b₂, hrest, hdone, hothers⟩ := ih hnodup hl₁
      { report with resolved := report.resolved ++ overdue p now [c] }
    refine ⟨b₂, ?_, List.forall_mem_cons.mpr ⟨?_, hdone⟩, fun j hj => ?_⟩
    · have hsplit : overdue p now (c :: l) = overdue p now [c] ++ overdue p now l := by
        rw [overdue, overdue, overdue, ← List.map_append, ← List.filter_append]
        rfl
      rw [List.map_cons, List.foldl_cons, hstep, hrest, hsplit, ← List.append_assoc]
    · rw [hothers c.1 hc, hb₁, if_pos rfl]
    · obtain ⟨hjc, hjl⟩ := not_or.mp (mt List.mem_cons.mpr hj)
      rw [hothers j hjl, hframe j hjc]

/-- **A sweep of tables whose selected rows can all be read** gets to each of them: it fails at none,
resolves those whose records are expired, and leaves what is read for other entities alone. That they
can be read is said by the query, which gives all of them or none (`h`). -/
theorem sweep_of_expired (hp : p.flappingTime < Instant.latest) {s : TableStore}
    {found : List (String × StatusRecord)}
    (h : s.expired (now.minus p.stealthyShow) (now.minus p.flappingTime) = .ok found) :
    ∃ b', (Engine.of t p).sweep now (Backend.tables s) =
        (⟨found.length, overdue p now found, 0⟩, b') ∧
      (∀ c ∈ found, b'.recordAt c.1 = .ok (some (c.2.swept p now))) ∧
      ∀ j ∉ found.map Prod.fst, b'.recordAt j = (Backend.tables s).recordAt j := by
  obtain ⟨b', hloop, hdone, hothers⟩ := foldl_sweepOne_of_read (t := t) hp found
    (TableStore.nodup_expired h) (fun c hc => TableStore.recordAt_of_mem_expired h hc)
    { SweepReport.empty with examined := found.length }
  refine ⟨b', ?_, hdone, hothers⟩
  have hfind : ((Engine.of t p).tracker.findExpired now).runOn (Backend.tables s) =
      (.ok found, Backend.tables s) := by
    rw [Tracker.findExpired, Action.runOn_rename]
    show ((s.expired (now.minus p.stealthyShow) (now.minus p.flappingTime)).mapError _, _) = _
    rw [h]
    rfl
  unfold sweep
  rw [hfind]
  exact hloop

/-- **One selected row that cannot be read stops the sweep** before it has looked at any. -/
theorem sweep_of_not_legible {s : TableStore}
    (h : ¬ s.Legible (now.minus p.stealthyShow) (now.minus p.flappingTime)) :
    (Engine.of t p).sweep now (Backend.tables s) = (.empty, Backend.tables s) := by
  rw [← TableStore.exists_expired_iff] at h
  unfold sweep
  cases hexp : s.expired (now.minus p.stealthyShow) (now.minus p.flappingTime) with
  | ok found => exact absurd ⟨found, hexp⟩ h
  | error cause =>
    have hfind : ((Engine.of t p).tracker.findExpired now).runOn (Backend.tables s) =
        (.error (.store cause), Backend.tables s) := by
      rw [Tracker.findExpired, Action.runOn_rename]
      show ((s.expired (now.minus p.stealthyShow) (now.minus p.flappingTime)).mapError _, _) = _
      rw [hexp]
      rfl
    rw [hfind]

/-- **When a written record is resolved.** Over any table, whatever its other rows hold, a sweep
resolves the record of an expired row that the store wrote if every row that its query selects can be
read, and does nothing at all if one of them cannot.

The row of the entity was written for its record (`hr`), which is expired (`he`), so the query selects
it. The window is not the largest number (`hp`), as in `sweep_exact`. Of all other rows nothing is
assumed. -/
theorem resolved_iff_legible (t : StatusTable) (p : Policy) (hp : p.flappingTime < Instant.latest)
    (s : TableStore) (now : Instant) (id : String) (r : StatusRecord)
    (hr : s.statuses.get? id = some (.of r))
    (he : r.isExpired now p.stealthyShow p.flappingTime = true) :
    let after := (Engine.of t p).sweep now (Backend.tables s)
    let legible := s.Legible (now.minus p.stealthyShow) (now.minus p.flappingTime)
    (legible → id ∈ after.1.resolved ∧ after.2.recordAt id = .ok (some (r.resolve p now)) ∧
        after.1.failed = 0) ∧
      (¬ legible → after = (.empty, Backend.tables s)) := by
  intro after legible
  refine ⟨fun hlegible => ?_, sweep_of_not_legible⟩
  obtain ⟨found, hfound⟩ := TableStore.exists_expired_iff.mpr hlegible
  obtain ⟨b', hsweep, hdone, -⟩ := sweep_of_expired (t := t) hp hfound
  have hmem : (id, r) ∈ found := TableStore.mem_expired_of_written hfound hr he
  have hafter : after = (⟨found.length, overdue p now found, 0⟩, b') := hsweep
  have hswept : r.swept p now = r.resolve p now := if_pos he
  rw [hafter]
  refine ⟨?_, (hdone _ hmem).trans (by rw [hswept]), rfl⟩
  exact List.mem_map.mpr ⟨(id, r), List.mem_filter.mpr ⟨hmem, he⟩, rfl⟩

/-- A record that is stealthy since long ago. -/
def lurking : StatusRecord :=
  { StatusRecord.first .ok (atSecond 1000) with
    value := .stealthy
    stealthyTime := some (atSecond 900) }

/-- The row that was written for `lurking`, after a row with a text that is no record. The columns of
that row say that it is in the given status since the beginning. -/
def afterBlank (value : Status) : TableStore :=
  { TableStore.empty with
    statuses := SortedMap.ofList
      [("/a", ⟨value.code.val, some (atSecond 0), none, "\x7b\x7d"⟩),
        ("/b", .of lurking)] }

/-- An unreadable row that is not selected does no harm. -/
theorem resolved_iff_legible_unselected :
    "/b" ∈ ((Engine.of .standard .standard).sweep (atSecond 5000)
      (Backend.tables (afterBlank .off))).1.resolved := by
  refine ((resolved_iff_legible .standard .standard (by decide) (afterBlank .off) _ "/b" lurking rfl
    (by decide)).1 ?_).1
  have hrows : (afterBlank .off).statuses.entries =
      [("/a", ⟨0, some (atSecond 0), none, "\x7b\x7d"⟩), ("/b", .of lurking)] := rfl
  rw [TableStore.Legible, hrows]
  simp only [List.forall_mem_cons]
  refine ⟨fun hsel => ?_, fun _ => ⟨lurking, TableStore.decode_of lurking⟩, List.forall_mem_nil _⟩
  exact absurd hsel (by decide)

theorem not_legible_afterBlank :
    ¬ (afterBlank .stealthy).Legible
      ((atSecond 5000).minus Policy.standard.stealthyShow)
      ((atSecond 5000).minus Policy.standard.flappingTime) := by
  intro hlegible
  obtain ⟨r, hr⟩ := hlegible ("/a", ⟨2, some (atSecond 0), none, "\x7b\x7d"⟩)
    (by decide) (by decide)
  have herr : (TableStore.decode "\x7b\x7d" : Except StoreError StatusRecord) =
    .error .unreadable := rfl
  exact nomatch herr.symm.trans hr

/-- One that is selected keeps the written record from being resolved. -/
theorem unresolved_after_blank :
    let after := (Engine.of .standard .standard).sweep (atSecond 5000)
      (Backend.tables (afterBlank .stealthy))
    (afterBlank .stealthy).statuses.get? "/b" = some (.of lurking) ∧
      lurking.isExpired (atSecond 5000) Policy.standard.stealthyShow
        Policy.standard.flappingTime = true ∧
      "/b" ∉ after.1.resolved ∧ after.2.recordAt "/b" = .ok (some lurking) := by
  have hrow : (afterBlank .stealthy).statuses.get? "/b" = some (.of lurking) := rfl
  have hread : (Backend.tables (afterBlank .stealthy)).recordAt "/b" = .ok (some lurking) :=
    TableStore.recordAt_of_decode hrow (TableStore.decode_of lurking)
  dsimp only
  rw [sweep_of_not_legible not_legible_afterBlank]
  exact ⟨hrow, by decide, List.not_mem_nil, hread⟩

end Engine
end AlertStatus
