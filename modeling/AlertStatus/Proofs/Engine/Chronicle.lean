import AlertStatus.Proofs.Engine.Steps
import AlertStatus.Proofs.Event.History
import AlertStatus.Proofs.Store.Log

/-!
# The live record and the log summarise the run

Events of any routing keys are archived one after the other, in any order. What an event makes of the
live record of its key depends on the record alone, which holds a few fields of the events before it. Here
they are shown to be enough. After the run, the record says of its key what the whole history of the key
says (`Recounts`), and the log holds a copy of each change of state of the history, unless the state had
changed before at the same time. `summary_of_run` puts both together.

The events are plain: they bring no bookkeeping of their own, no acknowledgement, and pin nothing.
-/

set_option autoImplicit false

namespace AlertStatus

/-! ## 1. One record and its history -/

namespace Event

/-- The event leaves to the archive what the archive keeps, and nothing is pinned or acknowledged by
it. An event with a previous state of its own may be logged although its state did not change, and
after a pinned one the live record shows the pinned state. -/
structure Plain (e : Event) : Prop where
  previousState : e.previousState = none
  previousStateChange : e.previousStateChange = none
  ack : e.ack = none
  keepState : e.keepState = none

end Event

/-- What is found as the live record of a routing key says what the history of the key does. This is
the invariant of one key; that nothing is pinned or acknowledged is part of it, since the next merge
goes by what the live record has. -/
structure Recounts (h : History) (o : Option Event) : Prop where
  mark : o.map (fun e => (e.state, e.stateType)) = h.getLast?.map Report.mark
  since : o.bind Event.lastStateChange = h.since
  previousState : o.bind Event.previousState = h.previousState
  boundary : o.bind Event.previousStateChange = h.boundary
  bare : ∀ e, o = some e → e.ack = none ∧ e.keepState = none

theorem recounts_nil : Recounts [] none := ⟨rfl, rfl, rfl, rfl, fun _ h => nomatch h⟩

theorem History.exists_since (h : History) (last : Report) : ∃ t, since (h ++ [last]) = some t := by
  unfold since
  cases lastWhere Succession.changesMark (h ++ [last]) with
  | some s => exact ⟨s.next.time, rfl⟩
  | none =>
    cases h with
    | nil => exact ⟨last.time, rfl⟩
    | cons first h => exact ⟨first.time, rfl⟩

namespace Recounts

variable {h : History} {ev : Event} {now : Instant} {last : Report} {prior d : Event}

theorem first (hev : ev.Plain) (now : Instant) (x : ExtraFields) :
    Recounts [.of now ev] (some { { ev.identified now with
      lastStateChange := some (ev.timestamp.getD now) } with extra := x }) where
  mark := rfl
  since := rfl
  previousState := hev.previousState
  boundary := hev.previousStateChange
  bare := by
    rintro e ⟨⟩
    exact ⟨hev.ack, hev.keepState⟩

theorem eq_nil (hr : Recounts h none) : h = [] := by
  have hmark := hr.mark
  rw [Option.map_none, eq_comm, Option.map_eq_none_iff] at hmark
  exact List.getLast?_eq_none_iff.mp hmark

theorem exists_concat (hr : Recounts h (some prior)) : ∃ earlier last, h = earlier ++ [last] := by
  rcases List.eq_nil_or_concat' h with rfl | hsplit
  · exact nomatch hr.mark
  · exact hsplit

theorem mark_eq (hr : Recounts (h ++ [last]) (some prior)) :
    prior.state = last.event.state ∧ prior.stateType = last.event.stateType := by
  have hmark := hr.mark
  rw [List.getLast?_concat] at hmark
  exact Prod.mk.inj (Option.some.inj hmark)

/-- **The stamp of one more report** says what the longer history says of it. The event brings no
previous state of its own (`hev`). That would be kept where the state did not change, and there the
history tells of none. -/
theorem stamped_eq (hr : Recounts (h ++ [last]) (some prior)) (hev : ev.Plain) (now : Instant) :
    (ev.identified now).stamped prior (ev.timestamp.getD now) =
      { ev.identified now with
        previousState := if Succession.changesState ⟨h, last, .of now ev⟩ then some last.event.state
          else none
        previousStateChange := if Succession.crosses ⟨h, last, .of now ev⟩ then
          History.since (h ++ [last]) else none
        lastStateChange := History.since (h ++ [last, .of now ev]) } := by
  obtain ⟨hstate, htype⟩ := hr.mark_eq
  obtain ⟨t, ht⟩ := History.exists_since h last
  have hrun : prior.lastStateChange = some t := hr.since.trans ht
  have hprevious : (if ev.state = prior.state then ev.previousState else some prior.state) =
      if Succession.changesState ⟨h, last, .of now ev⟩ then some last.event.state else none := by
    by_cases hturn : ev.state = last.event.state
    · simp [Succession.changesState, hstate, hturn, hev.previousState]
    · simp [Succession.changesState, hstate, hturn]
  have hcross : (if ev.state = .ok ↔ prior.state = .ok then ev.previousStateChange else some t) =
      if Succession.crosses ⟨h, last, .of now ev⟩ then some t else none := by
    by_cases hsame : ev.state = .ok ↔ last.event.state = .ok
    · simp [Succession.crosses, hstate, hsame, hev.previousStateChange]
    · simp [Succession.crosses, hstate, hsame]
  have hsince : some (if ev.state = prior.state ∧ ev.stateType = prior.stateType then t
      else ev.timestamp.getD now) = History.since (h ++ [last, .of now ev]) := by
    rw [History.since_concat, ht, apply_ite some]
    by_cases hmark : ev.state = last.event.state ∧ ev.stateType = last.event.stateType
    · simp [Succession.changesMark, Report.mark, hstate, htype, hmark]
    · simp [Succession.changesMark, Report.mark, hstate, htype, hmark]
  rw [Event.stamped_eq, hrun, ht, ← hprevious, ← hcross, ← hsince]
  rfl

/-- **One more report**: the merged record says what the longer history says. What is read back of it
may have other extra fields (`x`), which say nothing of the history. -/
theorem of_merge (hr : Recounts (h ++ [last]) (some prior)) (hev : ev.Plain)
    (hd : prior.update? (((ev.identified now).stamped prior (ev.timestamp.getD now)).changeOf []
      prior) = some d) (x : ExtraFields) :
    Recounts (h ++ [last, .of now ev]) (some { d with extra := x }) := by
  rw [hr.stamped_eq hev] at hd
  have hprior := hr.bare prior rfl
  obtain ⟨hstate, htype, hprevious, hsince, hboundary⟩ :=
    Event.states_merged hd hev.keepState (by rw [hprior.2]; exact nofun)
  have hbare := Event.bare_merged hd ⟨hev.ack, hev.keepState⟩ hprior
  refine ⟨?_, ?_, ?_, ?_, ?_⟩
  · have hend : (h ++ [last, .of now ev]).getLast? = some (.of now ev) := by simp
    rw [hend]
    exact congrArg some (Prod.ext hstate htype)
  · obtain ⟨t, ht⟩ := History.exists_since (h ++ [last]) (.of now ev)
    rw [List.append_assoc, List.cons_append, List.nil_append] at ht
    refine hsince.trans ?_
    rw [ht]
    rfl
  · refine hprevious.trans ?_
    rw [History.previousState_concat, ← hr.previousState]
    split <;> rfl
  · obtain ⟨t, ht⟩ := History.exists_since h last
    refine hboundary.trans ?_
    rw [History.boundary_concat, ← hr.boundary, ht]
    by_cases hcross : Succession.crosses ⟨h, last, .of now ev⟩ = true
    · simp [hcross]
    · simp [hcross]
  · rintro e ⟨⟩
    exact hbare

end Recounts

/-! ## 2. The log -/

/-- The log after an event was archived, where `o` was the live record of its key. -/
def logAfter (l : List LogEntry) (now : Instant) (ev : Event) : Option Event → List LogEntry
  | none => l
  | some prior =>
    let t := ev.timestamp.getD now
    let e := (ev.identified now).stamped prior t
    let entry := Archive.logCopy ev.routingKey t e prior
    if Archive.logged e then (if entry.id ∈ l.map LogEntry.id then l else l ++ [entry]) else l

theorem logs_archive {b : Backend} {l : List LogEntry} (hb : b.Logs l) {ev : Event} {o : Option Event}
    (ho : b.eventAt ev.routingKey = .ok o) (excluded : List String) (now : Instant) :
    (((⟨excluded⟩ : Archive).process now ev).runOn b).2.Logs (logAfter l now ev o) := by
  have hput (b : Backend) (e : Event) : (Store.putEvent ev.routingKey e).runOn b =
      (.ok (), ((Store.putEvent ev.routingKey e).runOn b).2) :=
    Prod.ext (Backend.runOn_putEvent b ev.routingKey e) rfl
  unfold Archive.process
  rw [Action.runOn_bind, Backend.runOn_getEvent, ho]
  cases o with
  | none =>
    dsimp only
    rw [Action.runOn_bind, hput]
    exact Backend.logs_putEvent hb _ _
  | some prior =>
    let t := ev.timestamp.getD now
    let e := (ev.identified now).stamped prior t
    let log : Action Backend StoreError Bool :=
      if Archive.logged e then Archive.tryAppend (Archive.logCopy ev.routingKey t e prior)
      else pure false
    -- The log is written after the update or in its place.
    have hlog {b : Backend} (hb : b.Logs l) : (log.runOn b).2.Logs (logAfter l now ev (some prior)) := by
      show ((if Archive.logged e = true then _ else _ : Action Backend StoreError Bool).runOn b).2.Logs
        (if Archive.logged e = true then _ else _)
      split
      · exact Backend.logs_appendLog hb _
      · exact hb
    show ((if (e.changeOf excluded prior).isEmpty = true then log
      else Store.updateEvent ev.routingKey (e.changeOf excluded prior) >>= fun _ => log).runOn
        b).2.Logs _
    split
    · exact hlog hb
    · obtain ⟨d, hd, -, -⟩ := Event.exists_merged excluded e prior
      rw [Action.runOn_bind, Backend.runOn_updateEvent ho hd, hput]
      exact hlog (Backend.logs_putEvent hb _ _)

/-- The reports of a routing key in a run, each at its time of the clock. -/
def reports (rk : String) (run : List (Instant × Event)) : History :=
  (run.filter fun c => c.2.routingKey = rk).map fun c => .of c.1 c.2

theorem reports_concat (rk : String) (run : List (Instant × Event)) (c : Instant × Event) :
    reports rk (run ++ [c]) =
      if c.2.routingKey = rk then reports rk run ++ [.of c.1 c.2] else reports rk run := by
  unfold reports
  by_cases hrk : c.2.routingKey = rk
  · simp [hrk]
  · simp [hrk]

theorem logged_stamped {h : History} {last : Report} {prior ev : Event}
    (hr : Recounts (h ++ [last]) (some prior)) (hev : ev.Plain) (now : Instant) :
    Archive.logged ((ev.identified now).stamped prior (ev.timestamp.getD now)) =
      decide (ev.state ≠ last.event.state) := by
  rw [hr.stamped_eq hev]
  by_cases hturn : ev.state = last.event.state
  · simp [Archive.logged, Succession.changesState, hturn]
  · simp [Archive.logged, Succession.changesState, Event.identified, hturn, Ne.symm hturn]

/-- The copy of a change of state is the one that the history asks for. -/
theorem logCopy_eq {h : History} {last : Report} {prior ev : Event}
    (hr : Recounts (h ++ [last]) (some prior)) (hev : ev.Plain) (now : Instant)
    (hturn : ev.state ≠ last.event.state) :
    Archive.logCopy ev.routingKey (ev.timestamp.getD now)
      ((ev.identified now).stamped prior (ev.timestamp.getD now)) prior =
      Succession.copy ev.routingKey ⟨h, last, .of now ev⟩ := by
  have hstate : Succession.changesState ⟨h, last, .of now ev⟩ = true := decide_eq_true hturn
  have hmark : Succession.changesMark ⟨h, last, .of now ev⟩ = true :=
    decide_eq_true fun heq => hturn (congrArg Prod.fst heq)
  rw [hr.stamped_eq hev, hstate, History.since_concat, hmark, Archive.logCopy, (hr.bare prior rfl).1]
  rfl

theorem filter_logAfter_of_ne {rk : String} {ev : Event} (hrk : ev.routingKey ≠ rk)
    (l : List LogEntry) (now : Instant) (o : Option Event) :
    (logAfter l now ev o).filter (fun d => d.routingKey = rk) =
      l.filter fun d => d.routingKey = rk := by
  cases o with
  | none => rfl
  | some prior =>
    unfold logAfter
    dsimp only
    split
    · split
      · rfl
      · simp [Archive.logCopy, LogEntry.of, hrk]
    · rfl

/-! ## 3. Runs -/

/-- What is found in the store for each routing key says what its history in the run does. All keys are
taken together because they share one log, in which an entry is refused when its id was there. -/
structure Chronicle (m : Medium) (run : List (Instant × Event)) (w : World) (l : List LogEntry)
    (b : Backend) : Prop where
  reflects : b.Reflects m w
  logs : b.Logs l
  recounts : ∀ rk, Recounts (reports rk run) (w.live rk)
  entries : ∀ rk, l.filter (fun d => d.routingKey = rk) =
    (reports rk run).logged.map (Succession.copy rk)

variable {m : Medium} {run : List (Instant × Event)} {w : World} {l : List LogEntry} {b : Backend}

theorem Chronicle.exists_copy (hc : Chronicle m run w l b) {d : LogEntry} (hd : d ∈ l) :
    ∃ s ∈ (reports d.routingKey run).logged, s.copy d.routingKey = d := by
  have hmem : d ∈ l.filter fun d' => d'.routingKey = d.routingKey :=
    List.mem_filter.mpr ⟨hd, decide_eq_true rfl⟩
  rw [hc.entries] at hmem
  exact List.mem_map.mp hmem

/-- An id is taken exactly when the state of its routing key changed at its time. -/
theorem Chronicle.id_mem_iff (hc : Chronicle m run w l b) (rk : String) (t : Instant) (e : Event) :
    (LogEntry.of rk t e).id ∈ l.map LogEntry.id ↔ ∃ s ∈ (reports rk run).turns, s.next.time = t := by
  rw [← History.exists_logged_iff]
  constructor
  · intro h
    obtain ⟨d, hd, hid⟩ := List.mem_map.mp h
    obtain ⟨s, hs, hcopy⟩ := hc.exists_copy hd
    obtain ⟨hrk, ht⟩ := LogEntry.of_id_inj ((congrArg LogEntry.id hcopy).trans hid)
    rw [hrk] at hs
    exact ⟨s, hs, ht⟩
  · rintro ⟨s, hs, rfl⟩
    have hmem : s.copy rk ∈ l.filter fun d => d.routingKey = rk := by
      rw [hc.entries]
      exact List.mem_map_of_mem hs
    exact List.mem_map.mpr ⟨s.copy rk, (List.mem_filter.mp hmem).1, rfl⟩

/-- The log takes the copy that the history asks for, and no other one. -/
theorem Chronicle.entries_concat (hc : Chronicle m run w l b) {ev : Event} (hev : ev.Plain)
    (now : Instant) :
    (logAfter l now ev (w.live ev.routingKey)).filter (fun d => d.routingKey = ev.routingKey) =
      (History.logged (reports ev.routingKey run ++ [.of now ev])).map
        (Succession.copy ev.routingKey) := by
  have hold := hc.entries ev.routingKey
  have hr := hc.recounts ev.routingKey
  have hid := hc.id_mem_iff ev.routingKey (ev.timestamp.getD now)
  generalize reports ev.routingKey run = h at hold hr hid
  cases hlive : w.live ev.routingKey with
  | none =>
    rw [hlive] at hr
    obtain rfl := hr.eq_nil
    exact hold
  | some prior =>
    rw [hlive] at hr
    obtain ⟨earlier, last, rfl⟩ := hr.exists_concat
    have hsplit : earlier ++ [last] ++ [Report.of now ev] = earlier ++ [last, Report.of now ev] := by
      simp
    rw [hsplit, History.logged_concat, List.map_append, ← hold]
    unfold logAfter
    dsimp only
    rw [logged_stamped hr hev, Report.state_of, Report.time_of]
    by_cases hturn : ev.state = last.event.state
    · rw [if_neg (by simpa using hturn), if_pos (Or.inl hturn), List.map_nil, List.append_nil]
    · rw [if_pos (by simpa using hturn), logCopy_eq hr hev now hturn]
      have htaken : (Succession.copy ev.routingKey ⟨earlier, last, .of now ev⟩).id ∈
          l.map LogEntry.id ↔ _ := hid _
      by_cases hnew : ∃ s ∈ History.turns (earlier ++ [last]), s.next.time = ev.timestamp.getD now
      · rw [if_pos (htaken.mpr hnew), if_pos (Or.inr hnew), List.map_nil, List.append_nil]
      · rw [if_neg (mt htaken.mp hnew), if_neg (not_or.mpr ⟨hturn, hnew⟩), List.filter_append]
        congr 1
        exact List.filter_eq_self.mpr (by simp [Succession.copy, LogEntry.of])

/-- **One more event**, of whatever routing key. The other keys keep what they have: their live records
are not touched, and the id of a new entry is none of theirs. -/
theorem Chronicle.archive (hc : Chronicle m run w l b) {c : Instant × Event} (hk : m.Keeps c.2)
    (hev : c.2.Plain) :
    ∃ w' l', Chronicle m (run ++ [c]) w' l' (((⟨[]⟩ : Archive).process c.1 c.2).runOn b).2 := by
  obtain ⟨now, ev⟩ := c
  obtain ⟨_, b', _, hrun, hb', d, x, hd, rfl⟩ := Backend.succeeds_archive hk w [] now b hc.reflects
  have hlogs := logs_archive hc.logs (hc.reflects.events ev.routingKey) [] now
  rw [hrun] at hlogs ⊢
  refine ⟨_, _, hb', hlogs, fun rk => ?_, fun rk => ?_⟩
  · rw [reports_concat, World.live_setLive]
    by_cases hrk : ev.routingKey = rk
    · subst hrk
      rw [if_pos rfl, if_pos rfl]
      have hr := hc.recounts ev.routingKey
      generalize reports ev.routingKey run = h at hr
      cases hlive : w.live ev.routingKey with
      | none =>
        rw [hlive] at hr hd
        obtain rfl := hr.eq_nil
        cases hd
        exact .first hev now x
      | some prior =>
        rw [hlive] at hr hd
        obtain ⟨earlier, last, rfl⟩ := hr.exists_concat
        rw [List.append_assoc]
        exact hr.of_merge hev hd x
    · rw [if_neg hrk, if_neg (Ne.symm hrk)]
      exact hc.recounts rk
  · rw [reports_concat]
    by_cases hrk : ev.routingKey = rk
    · subst hrk
      rw [if_pos rfl]
      exact hc.entries_concat hev now
    · rw [if_neg hrk, filter_logAfter_of_ne hrk]
      exact hc.entries rk

/-- **A run of plain events keeps its chronicle.** The events are ones that the store keeps (`hkept`),
so that each is merged with what is read back of those before. In memory that is said of any event. -/
theorem chronicle_of_run (m : Medium) (run : List (Instant × Event))
    (hkept : ∀ c ∈ run, m.Keeps c.2) (hplain : ∀ c ∈ run, c.2.Plain) :
    ∃ w l, Chronicle m run w l
      (Action.runAll (fun c => (⟨[]⟩ : Archive).process c.1 c.2) run (Backend.blank m)) := by
  -- The history grows at its end, so the run is followed from its end too.
  induction run using List.reverseRecOn with
  | nil =>
    refine ⟨World.empty, [], Backend.reflects_blank m, ?_, fun _ => recounts_nil, fun _ => rfl⟩
    cases m <;> rfl
  | append_singleton run c ih =>
    obtain ⟨w, l, hc⟩ := ih (fun c' hc' => hkept c' (List.mem_append_left _ hc'))
      (fun c' hc' => hplain c' (List.mem_append_left _ hc'))
    have hlast : c ∈ run ++ [c] := List.mem_append_right _ (List.mem_singleton_self c)
    obtain ⟨w', l', hc'⟩ := hc.archive (hkept c hlast) (hplain c hlast)
    refine ⟨w', l', ?_⟩
    rw [Action.runAll, List.foldl_append]
    exact hc'

/-- What is logged is copied from an event of the run, which the store keeps. -/
theorem Chronicle.keeps_entry (hc : Chronicle m run w l b) (hkept : ∀ c ∈ run, m.Keeps c.2) :
    ∀ d ∈ l, m.Keeps d.event := by
  intro d hd
  obtain ⟨s, hs, hcopy⟩ := hc.exists_copy hd
  obtain ⟨later, hplace⟩ := History.mem_successions.mp
    (List.mem_filter.mp (List.mem_filter.mp hs).1).1
  have hnext : s.next ∈ reports d.routingKey run := by
    rw [hplace]
    simp
  obtain ⟨c, hc, hreport⟩ := List.mem_map.mp hnext
  refine (hkept c (List.mem_filter.mp hc).1).of_extra ?_
  rw [← hcopy]
  exact congrArg (fun r : Report => r.event.extra) hreport.symm

/-- **The live record and the log summarise the run.** Plain events of any routing keys are archived in
an empty store. For each routing key, the live record, if there is one, has the state of the last
report; it says since when state and state type are what they are, which state was before, and when the
run before the last change between healthy and alert began. The log has one copy of each change of
state at whose time the state had not changed before, and is in order of time.

The events are ones that the store keeps (`hkept`). That is nothing in memory, and in tables it says
that they can be read back; every store keeps the events that come from texts
(`Medium.keeps_of_readText`). With an event that cannot be read back, the look-ups of its key would
fail, whatever the archive has written. The events are plain (`hplain`): one with bookkeeping of its
own may have it taken over as it is. -/
theorem summary_of_run (m : Medium) (run : List (Instant × Event)) (hkept : ∀ c ∈ run, m.Keeps c.2)
    (hplain : ∀ c ∈ run, c.2.Plain) (rk : String) :
    let b := Action.runAll (fun c => (⟨[]⟩ : Archive).process c.1 c.2) run (Backend.blank m)
    let h := reports rk run
    (∃ o, b.eventAt rk = .ok o ∧
      o.map Event.state = h.getLast?.map (fun r => r.event.state) ∧
      o.bind Event.lastStateChange = h.since ∧
      o.bind Event.previousState = h.previousState ∧
      o.bind Event.previousStateChange = h.boundary) ∧
    ∃ copies log, b.logAt rk = .ok log ∧ List.Forall₂ m.Returns copies log ∧
      copies.Perm (h.logged.map (Succession.copy rk)) ∧
      copies.Pairwise fun d d' => d.timestamp < d'.timestamp := by
  intro b h
  obtain ⟨w, l, hc⟩ := chronicle_of_run m run hkept hplain
  have hr := hc.recounts rk
  refine ⟨⟨w.live rk, hc.reflects.events rk, ?_, hr.since, hr.previousState, hr.boundary⟩, ?_⟩
  · have hstate := congrArg (Option.map Prod.fst) hr.mark
    rw [Option.map_map, Option.map_map] at hstate
    exact hstate
  · have hkeeps := hc.keeps_entry hkept
    rw [← hc.reflects.medium] at hkeeps
    obtain ⟨log, hlog, hall⟩ := Backend.logAt_of_logs hc.logs hkeeps rk
    rw [hc.entries, hc.reflects.medium] at hall
    refine ⟨_, log, hlog, hall, perm_orderByTime _ _, strict_orderByTime ?_⟩
    rw [List.map_map]
    exact h.nodup_logged

/-- A web service fails and gets worse; another one fails meanwhile. -/
def outage : List (Instant × Event) :=
  [(atSecond 0, .webCheck 0 1000), (atSecond 1, { Event.webCheck 2 1050 with component := "web02" }),
    (atSecond 2, .webCheck 1 1100), (atSecond 3, .webCheck 2 1200)]

/-- The record says that the state is 2 since 1200, and that it was 1 before and healthy from 1000 on. -/
theorem summary_of_run_outage :
    ∃ o, (Action.runAll (fun c => (⟨[]⟩ : Archive).process c.1 c.2) outage
        (Backend.blank .texts)).eventAt webKey = .ok o ∧
      o.map Event.state = some (CheckState.ok.nearest 2) ∧
      o.bind Event.lastStateChange = some (atSecond 1200) ∧
      o.bind Event.previousState = some (CheckState.ok.nearest 1) ∧
      o.bind Event.previousStateChange = some (atSecond 1000) := by
  have hkept : ∀ c ∈ outage, Medium.texts.Keeps c.2 := by
    intro c hc
    fin_cases hc
    · exact keeps_webCheck _ _ _
    · exact (keeps_webCheck _ 2 1050).of_extra rfl
    · exact keeps_webCheck _ _ _
    · exact keeps_webCheck _ _ _
  have hplain : ∀ c ∈ outage, c.2.Plain := by
    intro c hc
    fin_cases hc <;> exact ⟨rfl, rfl, rfl, rfl⟩
  obtain ⟨⟨o, ho, hstate, hsince, hprevious, hboundary⟩, -⟩ :=
    summary_of_run .texts outage hkept hplain webKey
  refine ⟨o, ho, hstate.trans ?_, hsince.trans ?_, hprevious.trans ?_, hboundary.trans ?_⟩
  all_goals decide +kernel

end AlertStatus
