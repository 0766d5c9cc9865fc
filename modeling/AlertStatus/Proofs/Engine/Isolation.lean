import AlertStatus.Proofs.Engine.Sweep
import AlertStatus.Proofs.Store.Faults

/-!
# A sweep around entities that fail

A sweep goes on past an entity whose record cannot be read or written. Behind a plan of faults that
strikes at the records of some entities, again and again, and at those of no others, each of these
entities is counted as failed and keeps its record, and all others are swept as without the plan
(`sweep_isolated`). Faults that keep live events from following their records do not matter.

A fault that strikes changes the plan, since it may be used up. So the invariant of the loop is about
the plan too: `Fault.FailsOn` stays true whatever strikes (`Fault.FailsOn.lasts`).
-/

set_option autoImplicit false

namespace AlertStatus

/-! ## 1. Plans -/

namespace Fault

variable {method : StoreMethod} {key : String} {faults faults' : List Fault} {e : StoreError}

theorem strike_eq_none_iff :
    strike method key faults = none ↔ ∀ f ∈ faults, f.applies method key = false := by
  induction faults with
  | nil => exact ⟨nofun, fun _ => rfl⟩
  | cons f rest ih =>
    rw [List.forall_mem_cons, ← ih, strike]
    cases f.applies method key with
    | true => exact ⟨nofun, fun h => nomatch h.1⟩
    | false =>
      rw [if_neg Bool.false_ne_true, Option.map_eq_none_iff]
      exact ⟨fun h => ⟨rfl, h⟩, And.right⟩

/-- After a strike each fault is the one that it was, or the one that it was after it struck. -/
theorem mem_of_strike (h : strike method key faults = some (e, faults')) :
    (∀ g ∈ faults', ∃ f ∈ faults, g = f ∨ g = f.used) ∧
      ∀ f ∈ faults, f ∈ faults' ∨ f.used ∈ faults' := by
  induction faults generalizing faults' with
  | nil => cases h
  | cons f rest ih =>
    rw [strike] at h
    split at h
    · cases h
      constructor
      · rintro g hg
        rcases List.mem_cons.mp hg with rfl | hg
        · exact ⟨f, List.mem_cons_self, Or.inr rfl⟩
        · exact ⟨g, List.mem_cons_of_mem _ hg, Or.inl rfl⟩
      · rintro g hg
        rcases List.mem_cons.mp hg with rfl | hg
        · exact Or.inr List.mem_cons_self
        · exact Or.inl (List.mem_cons_of_mem _ hg)
    · obtain ⟨⟨e', rest'⟩, hrest, heq⟩ := Option.map_eq_some_iff.mp h
      cases heq
      obtain ⟨hfrom, hto⟩ := ih hrest
      constructor
      · rintro g hg
        rcases List.mem_cons.mp hg with rfl | hg
        · exact ⟨g, List.mem_cons_self, Or.inl rfl⟩
        · obtain ⟨f', hf', heq⟩ := hfrom g hg
          exact ⟨f', List.mem_cons_of_mem _ hf', heq⟩
      · rintro g hg
        rcases List.mem_cons.mp hg with rfl | hg
        · exact Or.inl List.mem_cons_self
        · exact (hto g hg).imp (List.mem_cons_of_mem _) (List.mem_cons_of_mem _)

theorem applies_iff {f : Fault} : f.applies method key = true ↔
    (f.method = method ∧ f.key.all (fun k => k = key) = true) ∧ f.remaining ≠ some 0 := by
  unfold applies
  rw [Bool.and_eq_true, Bool.and_eq_true, decide_eq_true_eq, decide_eq_true_eq]

theorem applies_of_used {f : Fault} (h : f.used.applies method key = true) :
    f.applies method key = true := by
  rw [applies_iff] at h ⊢
  refine ⟨h.1, fun hn => h.2 ?_⟩
  show f.remaining.map _ = _
  rw [hn]
  rfl

/-- A fault without a count strikes again as before. -/
theorem used_of_permanent {f : Fault} (h : f.remaining = none) : f.used = f := by
  obtain ⟨m, e, k, n⟩ := f
  cases h
  rfl

/-- The records of the entities `F` cannot be read, or cannot be written, ever. The query for expired
records works, and so do the look-ups and writes of all other records. Faults of other operations may
be planned too, with or without a count. -/
structure FailsOn (F : String → Prop) (faults : List Fault) : Prop where
  query : strike .expiredStatuses "" faults = none
  fails : ∀ id, F id → ∃ f ∈ faults, f.remaining = none ∧
    (f.applies .getStatus id = true ∨ f.applies .putStatus id = true)
  works : ∀ id, ¬ F id → strike .getStatus id faults = none ∧ strike .putStatus id faults = none

variable {F : String → Prop}

theorem strike_none_of_strike (h : strike method key faults = some (e, faults')) {m : StoreMethod}
    {k : String} (hnone : strike m k faults = none) : strike m k faults' = none := by
  rw [strike_eq_none_iff] at hnone ⊢
  intro g hg
  obtain ⟨f, hf, heq⟩ := (mem_of_strike h).1 g hg
  rcases heq with rfl | rfl
  · exact hnone g hf
  · exact Bool.eq_false_iff.mpr fun happ =>
      Bool.noConfusion ((hnone f hf).symm.trans (applies_of_used happ))

/-- **Whatever strikes, the same entities fail.** A fault that strikes may be used up, but those that
keep the records of `F` from being read or written have no count, so they strike again. -/
theorem FailsOn.lasts (hF : FailsOn F faults) (h : strike method key faults = some (e, faults')) :
    FailsOn F faults' where
  query := strike_none_of_strike h hF.query
  fails := by
    intro id hid
    obtain ⟨f, hf, hpermanent, happ⟩ := hF.fails id hid
    refine ⟨f, ?_, hpermanent, happ⟩
    have hkept := (mem_of_strike h).2 f hf
    rw [used_of_permanent hpermanent] at hkept
    exact or_self_iff.mp hkept
  works := fun id hid =>
    ⟨strike_none_of_strike h (hF.works id hid).1, strike_none_of_strike h (hF.works id hid).2⟩

/-- A record that cannot be read can perhaps be written, but one of both cannot be done. -/
theorem FailsOn.struck (hF : FailsOn F faults) {id : String} (hid : F id) :
    (∃ struck, strike .getStatus id faults = some struck) ∨
      strike .getStatus id faults = none ∧ ∃ struck, strike .putStatus id faults = some struck := by
  obtain ⟨f, hf, -, happ⟩ := hF.fails id hid
  cases hget : Fault.strike .getStatus id faults with
  | some struck => exact Or.inl ⟨struck, rfl⟩
  | none =>
    refine Or.inr ⟨rfl, Option.ne_none_iff_exists'.mp fun hput => ?_⟩
    rcases happ with happ | happ
    · exact Bool.noConfusion (happ.symm.trans (strike_eq_none_iff.mp hget f hf))
    · exact Bool.noConfusion (happ.symm.trans (strike_eq_none_iff.mp hput f hf))

end Fault

/-! ## 2. One candidate -/

namespace Engine

open Backend FaultyStore

variable {s : FaultyStore Backend} {m : SortedMap StatusRecord} {t : StatusTable} {p : Policy}
  {now : Instant} {F : String → Prop} {id : String} {r : StatusRecord}

/-- The live event follows its record, or is kept from it; the same entities fail after that. -/
theorem follow_faulty (hF : Fault.FailsOn F s.faults) (r : StatusRecord) :
    s.store.SameStatuses (follow r s).store ∧ Fault.FailsOn F (follow r s).faults := by
  unfold follow
  cases r.routingKey with
  | none => exact ⟨.refl _, hF⟩
  | some rk =>
    dsimp only [Archive.setStatus]
    cases hstrike : Fault.strike .updateEvent rk s.faults with
    | some struck =>
      rw [show (Store.updateEvent rk _).runOn s = _ from guarded_of_strike hstrike]
      exact ⟨.refl _, hF.lasts hstrike⟩
    | none =>
      rw [show (Store.updateEvent rk _).runOn s = _ from guarded_of_pass hstrike]
      exact ⟨sameStatuses_updateEvent _ _ _, hF⟩

/-- An entity of `F` is refused, by the look-up or by the write, and keeps its record. -/
theorem sweepOne_of_fails (hp : p.flappingTime < Instant.latest) (hF : Fault.FailsOn F s.faults)
    (hid : F id) (hr : s.store.recordAt id = .ok (some r))
    (he : r.isExpired now p.stealthyShow p.flappingTime = true) (report : SweepReport) :
    ∃ faults, (Engine.of t p).sweepOne now (report, s) id =
        ({ report with failed := report.failed + 1 }, { s with faults }) ∧ Fault.FailsOn F faults := by
  have hexpire : ∃ err faults, ((⟨t, p⟩ : Tracker).expire id now).runOn s =
      (.error err, { s with faults }) ∧ Fault.FailsOn F faults := by
    unfold Tracker.expire Tracker.getStatus
    rw [Action.runOn_bind, Action.runOn_rename]
    rcases hF.struck hid with ⟨struck, hget⟩ | ⟨hget, struck, hput⟩
    · rw [show (Store.getStatus id).runOn s = _ from guarded_of_strike hget]
      exact ⟨_, _, rfl, hF.lasts hget⟩
    · rw [show (Store.getStatus id).runOn s = _ from guarded_of_pass hget, runOn_getStatus, hr]
      dsimp only [Except.mapError]
      rw [if_pos ⟨he, StatusRecord.resolve_ne_of_isExpired hp he⟩, Action.runOn_bind, Tracker.putStatus,
        Action.runOn_rename, show (Store.putStatus id _).runOn s = _ from guarded_of_strike hput]
      exact ⟨_, _, rfl, hF.lasts hput⟩
  obtain ⟨err, faults, hrun, hlasts⟩ := hexpire
  refine ⟨faults, ?_, hlasts⟩
  unfold sweepOne
  rw [show ((Engine.of t p).tracker.expire id now).runOn (report, s).2 = _ from hrun]

/-- Any other entity is resolved as without the plan. -/
theorem sweepOne_of_works (hp : p.flappingTime < Instant.latest) (hF : Fault.FailsOn F s.faults)
    (hid : ¬ F id) (hm : s.store.Shows m) (hr : m.get? id = some r)
    (he : r.isExpired now p.stealthyShow p.flappingTime = true) (report : SweepReport) :
    ∃ s', (Engine.of t p).sweepOne now (report, s) id =
        ({ report with resolved := report.resolved ++ [id] }, s') ∧
      s'.store.Shows (m.insert id (r.swept p now)) ∧ Fault.FailsOn F s'.faults := by
  obtain ⟨hget, hput⟩ := hF.works id hid
  have hread : s.store.recordAt id = .ok (some r) := by rw [hm.recordAt, hr]
  let s₁ : FaultyStore Backend :=
    { s with store := ((Store.putStatus id (r.resolve p now)).runOn s.store).2 }
  have hexpire : ((⟨t, p⟩ : Tracker).expire id now).runOn s = (.ok (some (r.resolve p now)), s₁) := by
    unfold Tracker.expire Tracker.getStatus
    rw [Action.runOn_bind, Action.runOn_rename,
      show (Store.getStatus id).runOn s = _ from guarded_of_pass hget, runOn_getStatus, hread]
    dsimp only [Except.mapError]
    rw [if_pos ⟨he, StatusRecord.resolve_ne_of_isExpired hp he⟩, Action.runOn_bind, Tracker.putStatus,
      Action.runOn_rename, show (Store.putStatus id _).runOn s = _ from guarded_of_pass hput,
      runOn_putStatus]
    rfl
  obtain ⟨hsame, hlasts⟩ := follow_faulty (s := s₁) hF (r.resolve p now)
  refine ⟨follow (r.resolve p now) s₁, ?_, ?_, hlasts⟩
  · unfold sweepOne
    rw [show ((Engine.of t p).tracker.expire id now).runOn (report, s).2 = _ from hexpire]
  · have hswept : r.swept p now = r.resolve p now := if_pos he
    rw [hswept]
    exact (hm.putStatus id _).of_sameStatuses hsame

/-! ## 3. All candidates -/

/-- **The loop**: the candidates of `F` are counted and the others resolved, in whatever order they
come. No candidate comes twice (`hnodup`), so each is held as it was found (`hl`) when its turn comes,
whatever was written for the ones before. -/
theorem foldl_sweepOne_faulty [DecidablePred F] (hp : p.flappingTime < Instant.latest)
    (l : List (String × StatusRecord)) (hnodup : (l.map Prod.fst).Nodup)
    (he : ∀ e ∈ l, e.2.isExpired now p.stealthyShow p.flappingTime = true)
    {s : FaultyStore Backend} {m : SortedMap StatusRecord} (hm : s.store.Shows m)
    (hF : Fault.FailsOn F s.faults) (hl : ∀ e ∈ l, m.get? e.1 = some e.2) (report : SweepReport) :
    ∃ s', (l.map Prod.fst).foldl ((Engine.of t p).sweepOne now) (report, s) =
        ({ report with
            resolved := report.resolved ++ (l.filter fun e => ¬ F e.1).map Prod.fst
            failed := report.failed + (l.filter fun e => F e.1).length }, s') ∧
      s'.store.Shows (((l.filter fun e => ¬ F e.1).map fun e => (e.1, e.2.swept p now)).foldl
        (fun m e => m.insert e.1 e.2) m) := by
  induction l generalizing s m report with
  | nil =>
    refine ⟨s, ?_, hm⟩
    rw [List.filter_nil, List.filter_nil, List.map_nil, List.append_nil]
    rfl
  | cons e l ih =>
    obtain ⟨id, r⟩ := e
    obtain ⟨hid, hnodup'⟩ := List.nodup_cons.mp hnodup
    have he' : ∀ e ∈ l, e.2.isExpired now p.stealthyShow p.flappingTime = true :=
      fun e hel => he e (List.mem_cons_of_mem _ hel)
    have hl' : ∀ e ∈ l, m.get? e.1 = some e.2 := fun e hel => hl e (List.mem_cons_of_mem _ hel)
    have hexpired := he (id, r) List.mem_cons_self
    have hheld := hl (id, r) List.mem_cons_self
    rw [List.map_cons, List.foldl_cons]
    by_cases hfail : F id
    · obtain ⟨faults, hstep, hF'⟩ := sweepOne_of_fails hp hF hfail
        (by rw [hm.recordAt, hheld]) hexpired report
      obtain ⟨s', hrest, hs'⟩ := ih hnodup' he' (s := { s with faults }) hm hF' hl'
        { report with failed := report.failed + 1 }
      refine ⟨s', ?_, ?_⟩
      · rw [hstep, hrest, List.filter_cons_of_neg (by simpa using hfail),
          List.filter_cons_of_pos (by simpa using hfail), List.length_cons, Nat.add_assoc, Nat.add_comm 1]
      · rw [List.filter_cons_of_neg (by simpa using hfail)]
        exact hs'
    · obtain ⟨s₁, hstep, hs₁, hF'⟩ := sweepOne_of_works hp hF hfail hm hheld hexpired report
      -- The ids are distinct, so the later candidates are still held as they were found.
      have hl₁ : ∀ e ∈ l, (m.insert id (r.swept p now)).get? e.1 = some e.2 :=
        SortedMap.get?_insert_of_not_mem hid hl' _
      obtain ⟨s', hrest, hs'⟩ := ih hnodup' he' hs₁ hF' hl₁
        { report with resolved := report.resolved ++ [id] }
      refine ⟨s', ?_, ?_⟩
      · rw [hstep, hrest, List.filter_cons_of_pos (by simpa using hfail),
          List.filter_cons_of_neg (by simpa using hfail), List.map_cons, List.append_assoc]
        rfl
      · rw [List.filter_cons_of_pos (by simpa using hfail)]
        exact hs'

/-- **A sweep goes on past the entities that fail.** The report counts them, and names the others that
were expired in the order of the bytes of their ids. They keep their records, and every other record is
the one that it is after a sweep without faults.

The plan strikes at the records of the entities `F` and at no others (`hF`). The query has to work,
since without it there is nothing to sweep. Which of the entities fail, and whether at the look-up or
at the write, is left open. The other two conditions (`hp`, `hm`) are those of `sweep_exact`. -/
theorem sweep_isolated (t : StatusTable) (p : Policy) (hp : p.flappingTime < Instant.latest)
    (now : Instant) (F : String → Prop) [DecidablePred F] (s : FaultyStore Backend)
    (m : SortedMap StatusRecord) (hm : s.store.Shows m) (hF : Fault.FailsOn F s.faults) :
    let found := m.entries.filter fun e => e.2.isExpired now p.stealthyShow p.flappingTime
    let after := (Engine.of t p).sweep now s
    after.1 = ⟨found.length, (found.filter fun e => ¬ F e.1).map Prod.fst,
        (found.filter fun e => F e.1).length⟩ ∧
      (after.1.resolved.map encodeUtf8).Pairwise (· < ·) ∧
      ∀ id, after.2.store.recordAt id =
        if F id then s.store.recordAt id else ((Engine.of t p).sweep now s.store).2.recordAt id := by
  intro found after
  have hsub : List.Sublist found m.entries := List.filter_sublist
  have hnodup : (found.map Prod.fst).Nodup := m.nodup_keys.sublist (hsub.map Prod.fst)
  have hexpired : ∀ e ∈ found, e.2.isExpired now p.stealthyShow p.flappingTime = true :=
    fun e he => (List.mem_filter.mp he).2
  have hheld : ∀ e ∈ found, m.get? e.1 = some e.2 :=
    fun e he => SortedMap.get?_eq_some_iff.mpr (hsub.subset he)
  obtain ⟨s', hloop, hs'⟩ := foldl_sweepOne_faulty (t := t) hp found hnodup hexpired hm hF hheld
    { SweepReport.empty with examined := found.length }
  have hafter : after = (⟨found.length, (found.filter fun e => ¬ F e.1).map Prod.fst,
      (found.filter fun e => F e.1).length⟩, s') := by
    have hfind : ((Engine.of t p).tracker.findExpired now).runOn s = (.ok found, s) := by
      have hpass : (Store.expiredStatuses (now.minus p.stealthyShow) (now.minus p.flappingTime)).runOn s =
          (.ok found, s) := by
        refine (guarded_of_pass hF.query).trans ?_
        rw [hm.runOn_expiredStatuses]
        rfl
      show (Tracker.findExpired _ now).runOn s = _
      rw [Tracker.findExpired, Action.runOn_rename, show (Engine.of t p).tracker.policy = p from rfl, hpass]
      rfl
    show (Engine.of t p).sweep now s = _
    unfold sweep
    rw [hfind]
    dsimp only
    rw [hloop]
    simp only [SweepReport.empty, List.nil_append, Nat.zero_add]
  rw [hafter]
  refine ⟨rfl, ?_, fun id => ?_⟩
  · refine List.pairwise_map.mpr (List.pairwise_map.mpr ?_)
    exact (m.sorted.sublist (List.filter_sublist.trans hsub)).imp fun h => encodeUtf8_lt h
  · have hspared : (found.filter fun e => ¬ F e.1) = m.entries.filter fun e =>
        decide (¬ F e.1) && e.2.isExpired now p.stealthyShow p.flappingTime := List.filter_filter
    rw [hs'.recordAt, hm.recordAt, (shows_sweep (t := t) hp hm).recordAt, SortedMap.get?_map, hspared,
      get?_foldl_swept fun k r => decide (¬ F k) && r.isExpired now p.stealthyShow p.flappingTime]
    by_cases hid : F id
    · rw [if_pos hid]
      cases m.get? id with
      | none => rfl
      | some r =>
        rw [Option.map_some, decide_eq_false (not_not_intro hid), Bool.false_and,
          if_neg Bool.false_ne_true]
    · rw [if_neg hid]
      refine congrArg (fun f => Except.ok (Option.map f (m.get? id))) (funext fun r => ?_)
      rw [decide_eq_true hid, Bool.true_and]
      unfold StatusRecord.swept
      split <;> rfl

/-- Three stealthy entities. -/
def threeStealthy : MemoryStore :=
  let quiet : StatusRecord :=
    { StatusRecord.first .ok ⟨1000, by decide, by decide⟩ with
      value := .stealthy
      stealthyTime := some ⟨900, by decide, by decide⟩
      routingKey := some "key" }
  { MemoryStore.empty with statuses := SortedMap.ofList [("/a", quiet), ("/b", quiet), ("/c", quiet)] }

/-- The first record cannot be read, the second cannot be written, and live events cannot be updated. -/
def strikingTwo : List Fault :=
  [⟨.getStatus, .unreadable, some "/a", none⟩, ⟨.updateEvent, .backend, none, some 3⟩,
    ⟨.putStatus, .backend, some "/b", none⟩]

theorem failsOn_strikingTwo : Fault.FailsOn (fun id => id = "/a" ∨ id = "/b") strikingTwo where
  query := rfl
  fails := by
    rintro id (rfl | rfl)
    · exact ⟨_, List.mem_cons_self, rfl, Or.inl rfl⟩
    · exact ⟨_, List.mem_of_getElem? (i := 2) rfl, rfl, Or.inr rfl⟩
  works := by
    intro id hid
    obtain ⟨ha, hb⟩ := not_or.mp hid
    rw [Fault.strike_eq_none_iff, Fault.strike_eq_none_iff]
    simp [strikingTwo, Fault.applies, Ne.symm ha, Ne.symm hb]

theorem sweep_isolated_strikingTwo :
    Fault.FailsOn (fun id => id = "/a" ∨ id = "/b") strikingTwo ∧
      ((Engine.of .standard .standard).sweep ⟨5000, by decide, by decide⟩
        (⟨strikingTwo, .memory threeStealthy⟩ : FaultyStore Backend)).1 = ⟨3, ["/c"], 2⟩ := by
  refine ⟨failsOn_strikingTwo, ?_⟩
  refine (sweep_isolated .standard .standard (by decide) _ _ _ _ (shows_memory threeStealthy)
    failsOn_strikingTwo).1.trans ?_
  decide +kernel

end Engine
end AlertStatus
