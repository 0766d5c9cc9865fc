import AlertStatus.Event.Change
import Mathlib.Data.List.Basic
import Mathlib.Data.List.Induction

/-!
# What a history of reports says

The reports of one routing key, in the order in which they came, say all that its live record and its
log should say: since when state and state type are what they are, which state was before, when the run
before the last change between healthy and alert began, and which changes of state are logged. Here this
is read off the whole history, with no record kept along the way. Each answer is found at a
`Succession`, a report with the one before it and the history up to there.

The laws say how each answer changes with one more report, which is how a live record can keep up.
-/

set_option autoImplicit false

namespace AlertStatus

/-! ## 1. Histories -/

/-- An event as it was reported, before it is stamped, with its time. -/
structure Report where
  time : Instant
  event : Event

/-- The report of an event at the clock time `now`. -/
def Report.of (now : Instant) (e : Event) : Report := ⟨e.timestamp.getD now, e.identified now⟩

@[simp] theorem Report.time_of (now : Instant) (e : Event) :
    (Report.of now e).time = e.timestamp.getD now := rfl

@[simp] theorem Report.state_of (now : Instant) (e : Event) :
    (Report.of now e).event.state = e.state := rfl

@[simp] theorem Report.stateType_of (now : Instant) (e : Event) :
    (Report.of now e).event.stateType = e.stateType := rfl

def Report.mark (r : Report) : CheckState × CheckState := (r.event.state, r.event.stateType)

/-- The reports of one routing key, the oldest first. -/
abbrev History := List Report

/-- Two reports in a row, and the reports before them. -/
structure Succession where
  earlier : History
  last : Report
  next : Report

namespace Succession

def before (s : Succession) : History := s.earlier ++ [s.last]

def changesState (s : Succession) : Bool := s.next.event.state ≠ s.last.event.state

def changesMark (s : Succession) : Bool := s.next.mark ≠ s.last.mark

/-- One of the states is healthy and the other is not. -/
def crosses (s : Succession) : Bool :=
  ¬ (s.next.event.state = .ok ↔ s.last.event.state = .ok)

end Succession

namespace History

/-- The successions of a history, in order. -/
def successions : History → List Succession
  | last :: next :: rest =>
    ⟨[], last, next⟩ ::
      (successions (next :: rest)).map fun s => { s with earlier := last :: s.earlier }
  | _ => []

def lastWhere (p : Succession → Bool) (h : History) : Option Succession :=
  (h.successions.filter p).getLast?

/-- When the final run of reports with one state and state type began. -/
def since (h : History) : Option Instant :=
  ((h.lastWhere Succession.changesMark).map fun s => s.next.time).or (h.head?.map Report.time)

/-- The state before the last change of state. -/
def previousState (h : History) : Option CheckState :=
  (h.lastWhere Succession.changesState).map fun s => s.last.event.state

/-- When the run began that ended with the last change between healthy and alert. -/
def boundary (h : History) : Option Instant :=
  (h.lastWhere Succession.crosses).bind fun s => s.before.since

def turns (h : History) : List Succession := h.successions.filter Succession.changesState

/-- The changes of state, without those at whose time the state had changed before. -/
def logged (h : History) : List Succession :=
  h.turns.filter fun s => s.before.turns.all fun s' => s'.next.time ≠ s.next.time

end History

/-- The copy of the next report for the log of its routing key. -/
def Succession.copy (rk : String) (s : Succession) : LogEntry :=
  .of rk s.next.time
    { s.next.event with
      previousState := some s.last.event.state
      lastStateChange := some s.next.time
      previousStateChange := if s.crosses then s.before.since else none }

/-! ## 2. One more report -/

namespace History

variable {h : History} {last next : Report}

/-- **The successions are the places in the history**: each two reports in a row, with what came
before. -/
theorem mem_successions {h : History} {s : Succession} :
    s ∈ h.successions ↔ ∃ later, h = s.earlier ++ s.last :: s.next :: later := by
  induction h generalizing s with
  | nil => simp [successions]
  | cons first h ih =>
    cases h with
    | nil =>
      refine ⟨nofun, ?_⟩
      rintro ⟨later, hlater⟩
      have hlength := congrArg List.length hlater
      simp only [List.length_append, List.length_cons, List.length_nil] at hlength
      omega
    | cons second rest =>
      obtain ⟨earlier, last, next⟩ := s
      rw [successions, List.mem_cons, List.mem_map]
      simp only [ih]
      constructor
      · rintro (heq | ⟨s, ⟨later, hlater⟩, heq⟩)
        · cases heq
          exact ⟨rest, rfl⟩
        · cases heq
          exact ⟨later, congrArg (first :: ·) hlater⟩
      · rintro ⟨later, hlater⟩
        cases earlier with
        | nil =>
          cases hlater
          exact Or.inl rfl
        | cons r earlier =>
          obtain ⟨rfl, htail⟩ := List.cons.inj hlater
          exact Or.inr ⟨⟨earlier, last, next⟩, ⟨later, htail⟩, rfl⟩

theorem successions_concat (h : History) (last next : Report) :
    successions (h ++ [last, next]) = successions (h ++ [last]) ++ [⟨h, last, next⟩] := by
  induction h with
  | nil => rfl
  | cons first h ih =>
    -- The head of the rest is needed to open either side, so the rest is taken apart once more.
    cases h with
    | nil => rfl
    | cons second h =>
      show _ :: (successions (second :: h ++ [last, next])).map _ =
        _ :: (successions (second :: h ++ [last])).map _ ++ _
      rw [ih, List.map_append]
      rfl

theorem lastWhere_concat (p : Succession → Bool) (h : History) (last next : Report) :
    lastWhere p (h ++ [last, next]) =
      if p ⟨h, last, next⟩ then some ⟨h, last, next⟩ else lastWhere p (h ++ [last]) := by
  unfold lastWhere
  rw [successions_concat, List.filter_append, List.getLast?_append]
  by_cases hp : p ⟨h, last, next⟩ = true
  · simp [hp]
  · simp [hp]

theorem since_concat (h : History) (last next : Report) :
    since (h ++ [last, next]) =
      if Succession.changesMark ⟨h, last, next⟩ then some next.time else since (h ++ [last]) := by
  have hhead : (h ++ [last, next]).head? = (h ++ [last]).head? := by
    cases h <;> rfl
  unfold since
  rw [lastWhere_concat, hhead]
  split <;> rfl

/-- A history is followed from its oldest report on. After the first one, each report has one before
it, and with it there is one more succession. -/
@[elab_as_elim]
theorem growth {P : History → Prop} (nil : P []) (one : ∀ r, P [r])
    (more : ∀ h last next, P (h ++ [last]) → P (h ++ [last, next])) (h : History) : P h := by
  induction h using List.reverseRecOn with
  | nil => exact nil
  | append_singleton h next ih =>
    rcases List.eq_nil_or_concat' h with rfl | ⟨earlier, last, rfl⟩
    · exact one next
    · rw [List.append_assoc]
      exact more earlier last next ih

theorem previousState_concat (h : History) (last next : Report) :
    previousState (h ++ [last, next]) =
      if Succession.changesState ⟨h, last, next⟩ then some last.event.state
      else previousState (h ++ [last]) := by
  unfold previousState
  rw [lastWhere_concat]
  split <;> rfl

theorem boundary_concat (h : History) (last next : Report) :
    boundary (h ++ [last, next]) =
      if Succession.crosses ⟨h, last, next⟩ then since (h ++ [last]) else boundary (h ++ [last]) := by
  unfold boundary
  rw [lastWhere_concat]
  split <;> rfl

theorem turns_concat (h : History) (last next : Report) :
    turns (h ++ [last, next]) = turns (h ++ [last]) ++
      if next.event.state = last.event.state then [] else [⟨h, last, next⟩] := by
  unfold turns
  rw [successions_concat, List.filter_append, List.filter_singleton]
  by_cases hstate : next.event.state = last.event.state
  · simp [Succession.changesState, hstate]
  · simp [Succession.changesState, hstate]

theorem logged_concat (h : History) (last next : Report) :
    logged (h ++ [last, next]) = logged (h ++ [last]) ++
      if next.event.state = last.event.state ∨ ∃ s ∈ turns (h ++ [last]), s.next.time = next.time
        then [] else [⟨h, last, next⟩] := by
  unfold logged
  rw [turns_concat, List.filter_append]
  congr 1
  by_cases hstate : next.event.state = last.event.state
  · rw [if_pos hstate, if_pos (Or.inl hstate), List.filter_nil]
  · have hnew : (turns (h ++ [last])).all (fun s => s.next.time ≠ next.time) = true ↔
        ¬ ∃ s ∈ turns (h ++ [last]), s.next.time = next.time := by
      simp
    rw [if_neg hstate, List.filter_cons, List.filter_nil]
    by_cases hold : ∃ s ∈ turns (h ++ [last]), s.next.time = next.time
    · rw [if_pos (Or.inr hold)]
      exact if_neg fun hall => hnew.mp hall hold
    · rw [if_neg (not_or.mpr ⟨hstate, hold⟩)]
      exact if_pos (hnew.mpr hold)

/-- A time at which the state changed is one at which a change was logged: that of the first change at
that time. -/
theorem exists_logged_iff (h : History) (t : Instant) :
    (∃ s ∈ h.logged, s.next.time = t) ↔ ∃ s ∈ h.turns, s.next.time = t := by
  constructor
  · rintro ⟨s, hs, ht⟩
    exact ⟨s, (List.mem_filter.mp hs).1, ht⟩
  · -- From the oldest report on: a change at a new time is logged as it comes.
    induction h using growth with
    | nil | one =>
      rintro ⟨s, hs, -⟩
      cases hs
    | more earlier last next ih =>
      rw [turns_concat, logged_concat]
      rintro ⟨s, hs, rfl⟩
      have hpast (h : ∃ s' ∈ turns (earlier ++ [last]), s'.next.time = s.next.time) (new : List _) :
          ∃ s' ∈ logged (earlier ++ [last]) ++ new, s'.next.time = s.next.time := by
        obtain ⟨s', hs', ht⟩ := ih h
        exact ⟨s', List.mem_append_left _ hs', ht⟩
      rcases List.mem_append.mp hs with hs | hs
      · exact hpast ⟨s, hs, rfl⟩ _
      · split at hs
        · cases hs
        · rename_i hstate
          rw [List.mem_singleton] at hs
          subst hs
          by_cases hold : ∃ s ∈ turns (earlier ++ [last]), s.next.time = next.time
          · exact hpast hold _
          · rw [if_neg (not_or.mpr ⟨hstate, hold⟩)]
            exact ⟨_, List.mem_append_right _ (List.mem_singleton_self _), rfl⟩

theorem nodup_logged (h : History) : (h.logged.map fun s => s.next.time).Nodup := by
  induction h using growth with
  | nil | one => exact List.nodup_nil
  | more earlier last next ih =>
    rw [logged_concat]
    split
    · rw [List.append_nil]
      exact ih
    · rename_i hnew
      have hfresh : ¬ ∃ s ∈ logged (earlier ++ [last]), s.next.time = next.time := by
        rw [exists_logged_iff]
        exact (not_or.mp hnew).2
      rw [List.map_append, List.nodup_append]
      refine ⟨ih, List.pairwise_singleton _ _, ?_⟩
      intro t ht t' ht' heq
      obtain ⟨s, hs, rfl⟩ := List.mem_map.mp ht
      rw [List.map_singleton, List.mem_singleton] at ht'
      exact hfresh ⟨s, hs, heq.trans ht'⟩

end History
end AlertStatus
