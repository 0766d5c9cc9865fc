import AlertStatus.Proofs.Status.Relapse
import AlertStatus.Proofs.Status.Threshold

/-!
# Checks that repeat the recorded state

A check that finds the recorded state again is no oscillation. What its rule does then depends on the time
alone, and this file draws two conclusions from that.

A sweep asks what such a check would do. It has rules of its own (`StatusRecord.resolve`), which prune in
another place or not at all, and still it decides as the rule would: the rule leaves the resolved record,
pruned (`applyRule_eq_prune_resolve`).

A check that is delivered again repeats the state that it brought. The first delivery may lead to any
status, so the second is processed by another rule than the first, and may lead on. Two of the rules would
throw the oscillations away. They never get to do so, by what a check can leave behind (`LeftBy`), and so a
check is counted once, however often it comes.
-/

set_option autoImplicit false

namespace AlertStatus
namespace StatusRecord

variable {p : Policy} {r r' : StatusRecord} {c : Check} {now : Instant}

/-! ## 1. What rules and sweeps leave alone -/

/-- The record still tells when it was computed last, for which state and which event. -/
structure SameStamp (r r' : StatusRecord) : Prop where
  state : r'.state = r.state
  timestamp : r'.timestamp = r.timestamp
  lastStateChange : r'.lastStateChange = r.lastStateChange
  routingKey : r'.routingKey = r.routingKey

theorem SameStamp.trans {r'' : StatusRecord} (h : r.SameStamp r') (h' : r'.SameStamp r'') :
    r.SameStamp r'' :=
  ⟨h'.state.trans h.state, h'.timestamp.trans h.timestamp,
    h'.lastStateChange.trans h.lastStateChange, h'.routingKey.trans h.routingKey⟩

theorem sameStamp_settle (r : StatusRecord) (c : Check) : r.SameStamp (r.settle c) := by
  unfold settle
  split <;> exact ⟨rfl, rfl, rfl, rfl⟩

theorem sameStamp_observe (r : StatusRecord) (p : Policy) (c : Check) :
    r.SameStamp (r.observe p c) := by
  unfold observe noteOscillation
  split <;> exact ⟨rfl, rfl, rfl, rfl⟩

/-- **A rule never writes the stamp of a record.** -/
theorem sameStamp_applyRule (rule : Status) (r : StatusRecord) (p : Policy) (c : Check) :
    r.SameStamp (rule.applyRule r p c) := by
  have hseen := sameStamp_observe r p c
  cases rule with
  | off =>
    show r.SameStamp (r.processOff c)
    unfold processOff
    split <;> exact ⟨rfl, rfl, rfl, rfl⟩
  | ongoing =>
    show r.SameStamp (r.processOngoing p c)
    unfold processOngoing
    dsimp only
    split
    · exact hseen.trans ⟨rfl, rfl, rfl, rfl⟩
    split
    · split <;> exact hseen.trans ⟨rfl, rfl, rfl, rfl⟩
    · split <;> exact hseen.trans ⟨rfl, rfl, rfl, rfl⟩
  | stealthy =>
    show r.SameStamp (r.processStealthy p c)
    unfold processStealthy
    dsimp only
    split
    · exact hseen.trans (sameStamp_settle _ c)
    · split <;> exact hseen.trans ⟨rfl, rfl, rfl, rfl⟩
  | flapping =>
    show r.SameStamp (r.processFlapping p c)
    unfold processFlapping
    dsimp only
    split
    · exact hseen.trans ⟨rfl, rfl, rfl, rfl⟩
    · exact hseen.trans (sameStamp_settle _ c)
  | canceled =>
    show r.SameStamp (r.processCanceled p c)
    unfold processCanceled
    split
    · exact ⟨rfl, rfl, rfl, rfl⟩
    · have hcleared : r.SameStamp { r with flappingTimes := [] } := ⟨rfl, rfl, rfl, rfl⟩
      exact hcleared.trans (sameStamp_settle _ c)

theorem sameStamp_resolve (r : StatusRecord) (p : Policy) (now : Instant) :
    r.SameStamp (r.resolve p now) := by
  have hkept : r.SameStamp (r.prune now p.flappingTime) := ⟨rfl, rfl, rfl, rfl⟩
  unfold resolve
  dsimp only
  split
  · exact sameStamp_settle r _
  · split
    · exact hkept
    · exact hkept.trans (sameStamp_settle _ _)
  · exact ⟨rfl, rfl, rfl, rfl⟩

/-! ## 2. The sweep decides as a repeated check would -/

theorem prune_prune (r : StatusRecord) (now window : Instant) :
    (r.prune now window).prune now window = r.prune now window :=
  congrArg (fun l => { r with flappingTimes := l }) (filter_prune r now window)

theorem settle_prune (r : StatusRecord) (c : Check) (now window : Instant) :
    (r.prune now window).settle c = (r.settle c).prune now window := by
  unfold settle
  split <;> rfl

/-- **The rule of a transient status leaves the resolved record, pruned**, when a check repeats the
recorded state. A sweep prunes a stealthy record not at all and a flapping one before it counts. -/
theorem applyRule_eq_prune_resolve (hv : r.value = .stealthy ∨ r.value = .flapping) :
    r.value.applyRule r p ⟨r.state, now⟩ = (r.resolve p now).prune now p.flappingTime := by
  have hseen : r.observe p ⟨r.state, now⟩ = r.prune now p.flappingTime := observe_eq_prune rfl
  rcases hv with hv | hv
  · rw [resolve_of_stealthy hv, hv, ← settle_prune]
    show r.processStealthy p ⟨r.state, now⟩ = _
    unfold processStealthy
    dsimp only
    rw [if_pos (Or.inl rfl), hseen]
  · have hflapping : { r.prune now p.flappingTime with value := .flapping } =
        r.prune now p.flappingTime := by
      rw [← hv]
      rfl
    rw [resolve_of_flapping hv, hv]
    show r.processFlapping p ⟨r.state, now⟩ = _
    unfold processFlapping
    dsimp only
    rw [hseen, hflapping]
    -- Both sides count the same oscillations now, and pruning them once more drops nothing.
    split
    · exact (prune_prune r now p.flappingTime).symm
    · rw [← settle_prune, prune_prune]

/-- A flapping record was pruned when it was resolved. -/
theorem resolve_flappingTimes_of_flapping (hv : r.value = .flapping) :
    (r.resolve p now).flappingTimes = (r.prune now p.flappingTime).flappingTimes := by
  rw [resolve_of_flapping hv]
  split
  · rfl
  · exact settle_flappingTimes

/-- Only a record that flaps on with all its oscillations is left as it is. -/
theorem resolve_eq_self_iff (hv : r.value = .stealthy ∨ r.value = .flapping) :
    r.resolve p now = r ↔ r.value = .flapping ∧ p.flappingFreq ≤ r.flappingTimes.length ∧
      ∀ t ∈ r.flappingTimes, inWindow now p.flappingTime t = true := by
  constructor
  · intro hsame
    have hvalue : (r.resolve p now).value = r.value := by rw [hsame]
    rcases hv with hv | hv
    · rw [value_resolve_of_stealthy hv, hv] at hvalue
      exact absurd hvalue r.plainStatus_ne_transient.1
    · have htimes : r.flappingTimes.filter (inWindow now p.flappingTime) = r.flappingTimes := by
        rw [← prune_flappingTimes, ← resolve_flappingTimes_of_flapping hv, hsame]
      refine ⟨hv, ?_, List.filter_eq_self.mp htimes⟩
      rw [resolve_of_flapping hv] at hvalue
      split at hvalue
      · rename_i henough
        rw [oscillates, prune_flappingTimes, htimes] at henough
        exact of_decide_eq_true henough
      · have hplain : ((r.prune now p.flappingTime).settle ⟨r.state, now⟩).value = r.plainStatus :=
          value_settle (r.prune now p.flappingTime) now
        rw [hplain, hv] at hvalue
        exact absurd hvalue r.plainStatus_ne_transient.2
  · rintro ⟨hv, henough, hall⟩
    have hpruned : r.prune now p.flappingTime = r :=
      congrArg (fun l => { r with flappingTimes := l }) (List.filter_eq_self.mpr hall)
    rw [resolve_of_flapping hv, hpruned, oscillates, if_pos (decide_eq_true henough)]

/-- **The sweep decides as a repeated check would.** For every stealthy or flapping record, whatever
its oscillations, and at every time, also before them: resolving gives the status, the start of the
alert and the start of the quick recovery that the rule of the status gives for a check of the recorded
state at that time, and for a flapping record the same oscillations. It leaves state, times and routing
key, and it tells that nothing changed exactly when the record is as before, that is, when it flaps on
with all its oscillations.

The status has to be one of these two (`hv`). A sweep leaves all others as they are, while the rule of
an ongoing alert prunes and may make it flap. -/
theorem expire_eq_repeated_check (p : Policy) (r : StatusRecord) (now : Instant)
    (hv : r.value = .stealthy ∨ r.value = .flapping) :
    let checked := r.value.applyRule r p ⟨r.state, now⟩
    let swept := (r.expire p now).1
    (swept.value = checked.value ∧ swept.pendingTime = checked.pendingTime ∧
        swept.stealthyTime = checked.stealthyTime ∧
        (r.value = .flapping → swept.flappingTimes = checked.flappingTimes)) ∧
      (swept.state = r.state ∧ swept.timestamp = r.timestamp ∧
        swept.lastStateChange = r.lastStateChange ∧ swept.routingKey = r.routingKey) ∧
      ((r.expire p now).2 = false ↔ swept = r) ∧
      (swept = r ↔ r.value = .flapping ∧ p.flappingFreq ≤ r.flappingTimes.length ∧
        ∀ t ∈ r.flappingTimes, inWindow now p.flappingTime t = true) := by
  intro checked swept
  have hchecked : checked = swept.prune now p.flappingTime := applyRule_eq_prune_resolve hv
  have hstamp : r.SameStamp swept := sameStamp_resolve r p now
  have hchanged : (r.expire p now).2 = decide (swept ≠ r) := rfl
  rw [hchecked, hchanged, decide_eq_false_iff_not, Decidable.not_not]
  refine ⟨⟨rfl, rfl, rfl, fun hflapping => ?_⟩,
    ⟨hstamp.state, hstamp.timestamp, hstamp.lastStateChange, hstamp.routingKey⟩, Iff.rfl,
    resolve_eq_self_iff hv⟩
  have hpruned : swept.flappingTimes = (r.prune now p.flappingTime).flappingTimes :=
    resolve_flappingTimes_of_flapping hflapping
  rw [prune_flappingTimes, hpruned, filter_prune]

/-- A record that flaps, with one oscillation out of the window, one in it, and one that lies ahead of the
sweep. -/
def straggling : StatusRecord :=
  { StatusRecord.first (CheckState.ok.nearest 1) (Instant.latest.nearest 900) with
    value := .flapping
    flappingTimes := [10, 150, 900].map Instant.latest.nearest }

/-- The sweep at 200 keeps the one in the window, which is not enough. -/
theorem expire_eq_repeated_check_straggling :
    let p : Policy :=
      { Policy.standard with flappingFreq := 2, flappingTime := Instant.latest.nearest 100 }
    let now := Instant.latest.nearest 200
    let checked := straggling.value.applyRule straggling p ⟨straggling.state, now⟩
    let swept : StatusRecord :=
      { straggling with
        value := .ongoing, pendingTime := some now, flappingTimes := [Instant.latest.nearest 150] }
    (straggling.value = .stealthy ∨ straggling.value = .flapping) ∧
      straggling.expire p now = (swept, true) ∧ swept.value = checked.value ∧
      swept.pendingTime = checked.pendingTime ∧ swept.stealthyTime = checked.stealthyTime ∧
      swept.flappingTimes = checked.flappingTimes := by
  intro p now checked swept
  have hswept : straggling.expire p now = (swept, true) := by decide
  obtain ⟨⟨hvalue, hpending, hstealthy, htimes⟩, -⟩ :=
    expire_eq_repeated_check p straggling now (Or.inr rfl)
  rw [hswept] at hvalue hpending hstealthy htimes
  exact ⟨Or.inr rfl, hswept, hvalue, hpending, hstealthy, htimes rfl⟩

/-! ## 3. A check that is delivered again -/

/-- The records tell the same of the checks that they have seen. -/
structure SameReadings (r r' : StatusRecord) : Prop where
  state : r'.state = r.state
  timestamp : r'.timestamp = r.timestamp
  lastStateChange : r'.lastStateChange = r.lastStateChange
  flappingTimes : r'.flappingTimes = r.flappingTimes

theorem SameReadings.refl (r : StatusRecord) : r.SameReadings r := ⟨rfl, rfl, rfl, rfl⟩

theorem SameReadings.trans {r'' : StatusRecord} (h : r.SameReadings r') (h' : r'.SameReadings r'') :
    r.SameReadings r'' :=
  ⟨h'.state.trans h.state, h'.timestamp.trans h.timestamp,
    h'.lastStateChange.trans h.lastStateChange, h'.flappingTimes.trans h.flappingTimes⟩

/-- The routing key is not one of them. -/
theorem SameReadings.withKey (h : r.SameReadings r') (key : Option String) :
    r.SameReadings { r' with routingKey := key } :=
  ⟨h.state, h.timestamp, h.lastStateChange, h.flappingTimes⟩

/-- A status in which an entity can be left by the check `c`: off by a healthy one only, and canceled
only by one that does not lift the cancellation. These are the two statuses whose rules would forget
the oscillations when the check comes again. -/
structure LeftBy (p : Policy) (c : Check) (value : Status) : Prop where
  off : value = .off → c.state = .ok
  canceled : value = .canceled → p.restoreEvent = false ∧ c.state ≠ .ok

theorem leftBy_settle (r : StatusRecord) : LeftBy p c (r.settle c).value := by
  rw [settle_value]
  split
  · rename_i hok
    exact ⟨fun _ => hok, nofun⟩
  · exact ⟨nofun, nofun⟩

theorem leftBy_of_transient {value : Status}
    (h : value = .ongoing ∨ value = .stealthy ∨ value = .flapping) : LeftBy p c value := by
  rcases h with rfl | rfl | rfl <;> exact ⟨nofun, nofun⟩

/-- **The rule of a record's status leaves it in no other one.** -/
theorem leftBy_applyRule (r : StatusRecord) (p : Policy) (c : Check) :
    LeftBy p c (r.value.applyRule r p c).value := by
  cases hv : r.value with
  | off =>
    show LeftBy p c (r.processOff c).value
    unfold processOff
    split
    · rename_i hok
      exact ⟨fun _ => hok, nofun⟩
    · exact leftBy_of_transient (Or.inl rfl)
  | ongoing =>
    have hongoing : LeftBy p c (r.observe p c).value :=
      leftBy_of_transient (Or.inl (observe_value.trans hv))
    show LeftBy p c (r.processOngoing p c).value
    unfold processOngoing
    dsimp only
    split
    · exact leftBy_of_transient (Or.inr (Or.inr rfl))
    split
    · rename_i hok
      split
      · exact ⟨fun _ => hok, nofun⟩
      · exact leftBy_of_transient (Or.inr (Or.inl rfl))
    · split <;> exact hongoing
  | stealthy =>
    show LeftBy p c (r.processStealthy p c).value
    unfold processStealthy
    dsimp only
    split
    · exact leftBy_settle _
    split
    · exact leftBy_of_transient (Or.inr (Or.inr rfl))
    · exact leftBy_of_transient (Or.inr (Or.inl rfl))
  | flapping =>
    show LeftBy p c (r.processFlapping p c).value
    unfold processFlapping
    dsimp only
    split
    · exact leftBy_of_transient (Or.inr (Or.inr rfl))
    · exact leftBy_settle _
  | canceled =>
    show LeftBy p c (r.processCanceled p c).value
    unfold processCanceled
    split
    · rename_i hkept
      exact ⟨fun hoff => Status.noConfusion (hoff.symm.trans hv), fun _ => ⟨hkept.1, hkept.2.1⟩⟩
    · exact leftBy_settle _

/-- The record has taken in the check `c`: it is dated by it, its window ends with it, and its status is
one in which the check can have left it. -/
structure Taken (p : Policy) (c : Check) (r : StatusRecord) : Prop where
  state : r.state = c.state
  timestamp : r.timestamp = c.timestamp
  pruned : r.flappingTimes.filter (inWindow c.timestamp p.flappingTime) = r.flappingTimes
  left : LeftBy p c r.value

theorem taken_first (p : Policy) (c : Check) : (first c.state c.timestamp).Taken p c := by
  refine ⟨rfl, rfl, rfl, ?_⟩
  show LeftBy p c (if c.state = .ok then .off else .ongoing)
  split
  · rename_i hok
    exact ⟨fun _ => hok, nofun⟩
  · exact ⟨nofun, nofun⟩

/-- **After a step every record has taken in its check**, whatever it was before. -/
theorem taken_next (r : StatusRecord) (p : Policy) (c : Check) : (r.next p c).Taken p c where
  state := next_state
  timestamp := next_timestamp
  pruned := by
    rw [StatusRecord.next, stamp_flappingTimes, List.filter_filter]
    simp only [Bool.and_self]
  left := by
    rw [StatusRecord.next, stamp_value]
    exact leftBy_applyRule r p c

theorem Taken.withKey (h : r.Taken p c) (key : Option String) :
    ({ r with routingKey := key } : StatusRecord).Taken p c :=
  ⟨h.state, h.timestamp, h.pruned, h.left⟩

/-- The rule that processes a taken check again keeps the oscillations. -/
theorem Taken.applyRule_flappingTimes (h : r.Taken p c) :
    (r.value.applyRule r p c).flappingTimes = r.flappingTimes := by
  have hseen : (r.observe p c).flappingTimes = r.flappingTimes :=
    (observe_of_steady h.state.symm).trans h.pruned
  -- An alert would start the list anew at an off entity, and a lifted cancellation would clear it.
  cases hv : r.value with
  | off =>
    show (r.processOff c).flappingTimes = _
    unfold processOff
    rw [if_pos (h.left.off hv)]
  | ongoing => exact processOngoing_flappingTimes.trans hseen
  | stealthy => exact processStealthy_flappingTimes.trans hseen
  | flapping => exact processFlapping_flappingTimes.trans hseen
  | canceled =>
    obtain ⟨hrestore, halert⟩ := h.left.canceled hv
    show (r.processCanceled p c).flappingTimes = _
    unfold processCanceled
    rw [if_pos ⟨hrestore, halert, h.state ▸ halert⟩]

/-- **A taken check changes no reading when it comes again.** The status may still move on: a quick
recovery settles, and an ongoing alert may flap. -/
theorem Taken.sameReadings_next (h : r.Taken p c) : r.SameReadings (r.next p c) := by
  have hrule := sameStamp_applyRule r.value r p c
  refine ⟨next_state.trans h.state.symm, next_timestamp.trans h.timestamp.symm, ?_, ?_⟩
  · unfold StatusRecord.next stamp
    rw [if_pos (h.state.symm.trans hrule.state.symm)]
    exact hrule.lastStateChange
  · rw [StatusRecord.next, stamp_flappingTimes, h.applyRule_flappingTimes, h.pruned]

end StatusRecord

namespace Tracker

open StatusRecord

variable {p : Policy} {id : String} {o : Option StatusRecord} {b : Backend}

/-- On a store without faults a check gives the record that it leaves. -/
theorem runOn_process_standard (h : b.recordAt id = .ok o) (rk : String) (c : Check) :
    ∃ b', ((⟨.standard, p⟩ : Tracker).process id rk c).runOn b =
        (.ok ((⟨.standard, p⟩ : Tracker).renewByCheck rk c o), b') ∧
      b'.recordAt id = .ok (some ((⟨.standard, p⟩ : Tracker).renewByCheck rk c o)) := by
  refine ⟨(((⟨.standard, p⟩ : Tracker).process id rk c).runOn b).2, ?_, recordAt_process h rk c⟩
  refine Prod.ext ?_ rfl
  rw [process, Action.runOn_bind, Backend.runOn_trackerGet_of_ok h]
  cases o with
  | none =>
    dsimp only
    rw [Backend.runOn_trackerKeep]
    rfl
  | some r =>
    dsimp only [renewByCheck]
    split
    · rfl
    · rw [Action.runOn_bind, Action.runOn_ofExcept, advance_standard]
      dsimp only
      rw [Backend.runOn_trackerKeep]

/-- The record is later than the check, or it has taken it in. -/
def DealtWith (p : Policy) (c : Check) (r : StatusRecord) : Prop :=
  c.timestamp < r.timestamp ∨ r.Taken p c

/-- After a check it is dealt with. -/
theorem dealtWith_renewByCheck (o : Option StatusRecord) (rk : String) (c : Check) :
    DealtWith p c ((⟨.standard, p⟩ : Tracker).renewByCheck rk c o) := by
  cases o with
  | none => exact Or.inr ((taken_first p c).withKey _)
  | some r =>
    rw [renewByCheck_standard]
    split
    · rename_i hstale
      exact Or.inl hstale
    · exact Or.inr ((taken_next r p c).withKey _)

/-- A check that is dealt with leaves all readings. -/
theorem DealtWith.sameReadings {r : StatusRecord} {c : Check} (h : DealtWith p c r) (rk : String) :
    r.SameReadings ((⟨.standard, p⟩ : Tracker).renewByCheck rk c (some r)) := by
  rw [renewByCheck_standard]
  split
  · exact SameReadings.refl r
  · rename_i hcurrent
    rcases h with hstale | htaken
    · exact absurd hstale hcurrent
    · exact htaken.sameReadings_next.withKey _

/-- The run: however often a check comes that is dealt with. -/
theorem DealtWith.sameReadings_foldl {r : StatusRecord} {c : Check} (h : DealtWith p c r)
    (id rk : String) (n : Nat) :
    ∃ r', (List.replicate n (TrackerCommand.process id rk c)).foldl
        ((⟨.standard, p⟩ : Tracker).renewFor id) (some r) = some r' ∧ DealtWith p c r' ∧
      r.SameReadings r' := by
  induction n generalizing r with
  | zero => exact ⟨r, rfl, h, SameReadings.refl r⟩
  | succ n ih =>
    have hown : (⟨.standard, p⟩ : Tracker).renewFor id (some r) (.process id rk c) =
        some ((⟨.standard, p⟩ : Tracker).renewByCheck rk c (some r)) := if_pos rfl
    obtain ⟨r', hfold, hdealt, hsame⟩ := ih (dealtWith_renewByCheck (some r) rk c)
    refine ⟨r', ?_, hdealt, (h.sameReadings rk).trans hsame⟩
    rw [List.replicate_succ, List.foldl_cons, hown]
    exact hfold

/-- **A check that is delivered again is not counted again.** For every record of the entity, reachable
or not, or none: the check goes through, and however often it comes again with the same routing key, it
goes through and leaves a record with the same state, the same times and the same oscillations as after
the first time.

That the record can be read, if there is one, is all that is asked of the store (`h`); with a row that
cannot, no check of the entity goes through. The status is not among what stays (`SameReadings`), and
`redelivered_check_counts_once_quietHost` shows one that moves on. -/
theorem redelivered_check_counts_once (p : Policy) (id rk : String) (c : Check)
    (h : b.recordAt id = .ok o) :
    ∃ r b₁, ((⟨.standard, p⟩ : Tracker).process id rk c).runOn b = (.ok r, b₁) ∧
      b₁.recordAt id = .ok (some r) ∧
      ∀ n, ∃ r' b₂,
        ((⟨.standard, p⟩ : Tracker).process id rk c).runOn
            (Action.runAll (TrackerCommand.run ⟨.standard, p⟩)
              (List.replicate n (.process id rk c)) b₁) = (.ok r', b₂) ∧
          b₂.recordAt id = .ok (some r') ∧ r.SameReadings r' := by
  obtain ⟨b₁, hrun, hrecord⟩ := runOn_process_standard (p := p) h rk c
  refine ⟨_, b₁, hrun, hrecord, fun n => ?_⟩
  obtain ⟨r', hfold, hdealt, hsame⟩ :=
    (dealtWith_renewByCheck (p := p) o rk c).sameReadings_foldl id rk n
  have hn := recordAt_runAll (t := ⟨.standard, p⟩) (List.replicate n (.process id rk c)) hrecord
  rw [hfold] at hn
  obtain ⟨b₂, hrun₂, hrecord₂⟩ := runOn_process_standard (p := p) hn rk c
  exact ⟨_, b₂, hrun₂, hrecord₂, hsame.trans (hdealt.sameReadings rk)⟩

/-- What is recorded of a host that recovered quickly a while ago. -/
def quietRecord : StatusRecord :=
  { StatusRecord.first .ok (Instant.latest.nearest 400) with
    value := .stealthy
    pendingTime := some (Instant.latest.nearest 30)
    stealthyTime := some (Instant.latest.nearest 30)
    flappingTimes := [Instant.latest.nearest 400] }

/-- The stealthy window is over when the next alert comes, so it settles the host, with as many oscillations
as it takes to flap. When it is delivered again the host flaps, and nothing else is new. -/
theorem redelivered_check_counts_once_quietHost :
    let p : Policy := { Policy.standard with flappingFreq := 2 }
    let c : Check := ⟨CheckState.ok.nearest 2, Instant.latest.nearest 401⟩
    let b := Backend.memory { MemoryStore.empty with statuses := .ofList [("/host", quietRecord)] }
    b.recordAt "/host" = .ok (some quietRecord) ∧
      ∃ r b₁ r' b₂, ((⟨.standard, p⟩ : Tracker).process "/host" "h" c).runOn b = (.ok r, b₁) ∧
        ((⟨.standard, p⟩ : Tracker).process "/host" "h" c).runOn b₁ = (.ok r', b₂) ∧
        r.value = .ongoing ∧ r'.value = .flapping ∧ r.SameReadings r' := by
  intro p c b
  obtain ⟨r, b₁, hrun, -, hagain⟩ := redelivered_check_counts_once (b := b) p "/host" "h" c rfl
  obtain ⟨r', b₂, hrun', -, hsame⟩ := hagain 0
  have hfirst : (((⟨.standard, p⟩ : Tracker).process "/host" "h" c).runOn b).1.map
      StatusRecord.value = .ok .ongoing := by decide +kernel
  have hsecond : (((⟨.standard, p⟩ : Tracker).process "/host" "h" c).runOn
      (((⟨.standard, p⟩ : Tracker).process "/host" "h" c).runOn b).2).1.map
      StatusRecord.value = .ok .flapping := by decide +kernel
  rw [hrun] at hfirst hsecond
  change (((⟨.standard, p⟩ : Tracker).process "/host" "h" c).runOn b₁).1.map _ = _ at hsecond
  have hrun₁ : ((⟨.standard, p⟩ : Tracker).process "/host" "h" c).runOn b₁ = (.ok r', b₂) := hrun'
  rw [hrun₁] at hsecond
  exact ⟨rfl, r, b₁, r', b₂, hrun, hrun₁, Except.ok.inj hfirst, Except.ok.inj hsecond, hsame⟩

end Tracker
end AlertStatus
