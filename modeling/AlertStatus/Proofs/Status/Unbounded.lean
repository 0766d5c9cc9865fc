import AlertStatus.Proofs.Status.Window
import AlertStatus.Status.Tracker
import AlertStatus.Store.Backend

/-!
# Saturation decides nothing

The machine subtracts times that may lie anywhere in the 64-bit range, and a difference that leaves the
range stops at its end. Here the machine stands a second time, over integers without bounds: its records
hold integers for times, and its differences are those of the integers. A record of the program is one of
these as well (`StatusRecord.unbounded`), and each function of the machine commutes with that reading as
long as no threshold is negative or the largest number there is (`Policy.Moderate`).

Two comparisons carry all of it, one for each form in which the program saturates: a span against a
threshold (`elapsed_eq_unbounded`), where only the largest threshold fails, and a time against the
start of a window (`lt_minus_iff_val`), where only negative ones do.
-/

set_option autoImplicit false

namespace AlertStatus

/-! ## 1. The machine without bounds -/

namespace Unbounded

/-- The thresholds of a policy. -/
structure Limits where
  flappingFreq : Nat
  flappingTime : Int
  stealthyTime : Int
  stealthyShow : Int
  restoreEvent : Bool

structure Check where
  state : CheckState
  timestamp : Int

structure Record where
  value : Status
  state : CheckState
  timestamp : Int
  lastStateChange : Int
  pendingTime : Option Int
  stealthyTime : Option Int
  flappingTimes : List Int
  routingKey : Option String
deriving DecidableEq

def elapsed (now since span : Int) : Bool := span < now - since

def inWindow (now window t : Int) : Bool := t ≤ now && !elapsed now t window

namespace Record

def enterOff (r : Record) : Record :=
  { r with value := .off, pendingTime := none, stealthyTime := none }

def enterOngoing (r : Record) (timestamp : Int) : Record :=
  { r with value := .ongoing, pendingTime := some timestamp, stealthyTime := none }

def settle (r : Record) (c : Check) : Record :=
  if c.state = .ok then r.enterOff else r.enterOngoing c.timestamp

def noteOscillation (r : Record) (c : Check) : Record :=
  if c.state = r.state then r else { r with flappingTimes := r.flappingTimes ++ [c.timestamp] }

def prune (r : Record) (now window : Int) : Record :=
  { r with flappingTimes := r.flappingTimes.filter (inWindow now window) }

def oscillates (r : Record) (l : Limits) : Bool := l.flappingFreq ≤ r.flappingTimes.length

def observe (r : Record) (l : Limits) (c : Check) : Record :=
  (r.noteOscillation c).prune c.timestamp l.flappingTime

def processOff (r : Record) (c : Check) : Record :=
  if c.state = .ok then { r with value := .off }
  else { r with flappingTimes := [c.timestamp] }.enterOngoing c.timestamp

def processOngoing (r : Record) (l : Limits) (c : Check) : Record :=
  let since := r.pendingTime.getD r.lastStateChange
  let seen := r.observe l c
  if seen.oscillates l then { seen with value := .flapping, stealthyTime := none }
  else if c.state = .ok then
    if elapsed c.timestamp since l.stealthyTime then seen.enterOff
    else { seen with value := .stealthy, stealthyTime := some since }
  else if c.state = r.state ∧ elapsed c.timestamp since l.flappingTime then
    { seen with pendingTime := some c.timestamp }
  else seen

def processStealthy (r : Record) (l : Limits) (c : Check) : Record :=
  let since := r.stealthyTime.getD r.timestamp
  let seen := r.observe l c
  if c.state = r.state ∨ elapsed c.timestamp since l.stealthyTime then seen.settle c
  else if seen.oscillates l then { seen with value := .flapping, stealthyTime := none }
  else { seen with value := .stealthy }

def processFlapping (r : Record) (l : Limits) (c : Check) : Record :=
  let seen := r.observe l c
  if seen.oscillates l then { seen with value := .flapping } else seen.settle c

def processCanceled (r : Record) (l : Limits) (c : Check) : Record :=
  if l.restoreEvent = false ∧ c.state ≠ .ok ∧ r.state ≠ .ok then r
  else { r with flappingTimes := [] }.settle c

def stamp (r : Record) (l : Limits) (c : Check) : Record :=
  let changed :=
    if c.state = r.state then r else { r with lastStateChange := c.timestamp, state := c.state }
  { changed with timestamp := c.timestamp }.prune c.timestamp l.flappingTime

def applyRule (rule : Status) (r : Record) (l : Limits) (c : Check) : Record :=
  match rule with
  | .off => r.processOff c
  | .ongoing => r.processOngoing l c
  | .stealthy => r.processStealthy l c
  | .flapping => r.processFlapping l c
  | .canceled => r.processCanceled l c

def next (r : Record) (l : Limits) (c : Check) : Record :=
  (applyRule r.value r l c).stamp l c

def resolve (r : Record) (l : Limits) (now : Int) : Record :=
  let c : Check := ⟨r.state, now⟩
  match r.value with
  | .stealthy => r.settle c
  | .flapping =>
    let kept := r.prune now l.flappingTime
    if kept.oscillates l then kept else kept.settle c
  | _ => r

def expire (r : Record) (l : Limits) (now : Int) : Record × Bool :=
  let resolved := r.resolve l now
  (resolved, resolved ≠ r)

def outlasts (r : Record) (stealthyBefore flappingBefore : Int) : Bool :=
  match r.value with
  | .stealthy => r.stealthyTime.any fun t => t < stealthyBefore
  | .flapping => r.flappingTimes.head?.any fun t => t < flappingBefore
  | _ => false

def isExpired (r : Record) (now stealthyShow flappingTime : Int) : Bool :=
  r.outlasts (now - stealthyShow) (now - flappingTime)

end Record
end Unbounded

/-! ## 2. Reading the program's data without bounds -/

def Policy.unbounded (p : Policy) : Unbounded.Limits where
  flappingFreq := p.flappingFreq
  flappingTime := p.flappingTime.val
  stealthyTime := p.stealthyTime.val
  stealthyShow := p.stealthyShow.val
  restoreEvent := p.restoreEvent

def Check.unbounded (c : Check) : Unbounded.Check := ⟨c.state, c.timestamp.val⟩

def StatusRecord.unbounded (r : StatusRecord) : Unbounded.Record where
  value := r.value
  state := r.state
  timestamp := r.timestamp.val
  lastStateChange := r.lastStateChange.val
  pendingTime := r.pendingTime.map Bounded.val
  stealthyTime := r.stealthyTime.map Bounded.val
  flappingTimes := r.flappingTimes.map Bounded.val
  routingKey := r.routingKey

theorem Bounded.val_injective {lo hi : Int} :
    Function.Injective (Bounded.val : Bounded lo hi → Int) := fun _ _ => Bounded.ext

/-- Nothing of a record is lost. -/
theorem StatusRecord.unbounded_injective : Function.Injective StatusRecord.unbounded := by
  intro r r' h
  obtain ⟨v, s, t, l, pt, st, fl, k⟩ := r
  obtain ⟨v', s', t', l', pt', st', fl', k'⟩ := r'
  simp only [unbounded, Unbounded.Record.mk.injEq] at h
  obtain ⟨rfl, rfl, ht, hl, hpt, hst, hfl, rfl⟩ := h
  rw [Bounded.ext ht, Bounded.ext hl, Option.map_injective Bounded.val_injective hpt,
    Option.map_injective Bounded.val_injective hst,
    (List.map_inj_right fun _ _ => Bounded.ext).mp hfl]

/-- The smallest time. -/
def Instant.earliest : Instant := Instant.latest.nearest (-9223372036854775808)

/-- Whether `span` is a threshold that saturation cannot reach: not negative, and not the largest
number. A negative one can move the start of a window past the largest time, and no difference of
times, once it is cut off, is longer than the largest number. -/
def Instant.Moderate (span : Instant) : Prop := 0 ≤ span.val ∧ span < Instant.latest

instance (span : Instant) : Decidable span.Moderate :=
  inferInstanceAs (Decidable (0 ≤ span.val ∧ span < Instant.latest))

/-- A policy whose thresholds are all moderate. -/
structure Policy.Moderate (p : Policy) : Prop where
  flappingTime : p.flappingTime.Moderate
  stealthyTime : p.stealthyTime.Moderate
  stealthyShow : p.stealthyShow.Moderate

/-! ## 3. The two comparisons -/

variable {now since span t : Instant}

/-- A span that is cut off at the largest number is still longer than any other threshold, and one that
is cut off at the smallest number is not longer than any. So only at the largest threshold may the two
differ. -/
theorem elapsed_eq_unbounded (hspan : span < Instant.latest) :
    elapsed now since span = Unbounded.elapsed now.val since.val span.val := by
  have hlt : span.val < 9223372036854775807 := hspan
  have hlo := span.lo_le
  refine decide_eq_decide.mpr ?_
  rw [Bounded.lt_iff, Bounded.val_minus]
  omega

/-- At the largest threshold the range is too short for any span to elapse. -/
example : elapsed Instant.latest Instant.earliest Instant.latest = false ∧
    Unbounded.elapsed Instant.latest.val Instant.earliest.val Instant.latest.val = true := by
  decide

/-- A window that would start before the smallest number starts there, and no time is before it. -/
theorem lt_minus_iff_val (hspan : 0 ≤ span.val) : t < now.minus span ↔ t.val < now.val - span.val := by
  have hlo := t.lo_le
  have hhi := now.le_hi
  rw [Bounded.lt_iff, Bounded.val_minus]
  omega

/-- A window of negative length would start after the largest number. -/
example : ¬ Instant.latest < Instant.latest.minus (Instant.latest.nearest (-1)) ∧
    Instant.latest.val < Instant.latest.val - (-1) := by
  decide

theorem inWindow_eq_unbounded (hspan : span < Instant.latest) :
    StatusRecord.inWindow now span t = Unbounded.inWindow now.val span.val t.val := by
  rw [StatusRecord.inWindow, Unbounded.inWindow, elapsed_eq_unbounded hspan]
  rfl

/-- The start of a window is compared alike, for a time that may be missing. -/
theorem any_lt_minus (hspan : 0 ≤ span.val) (o : Option Instant) :
    o.any (fun t => t < now.minus span) =
      (o.map Bounded.val).any fun t => t < now.val - span.val := by
  cases o with
  | none => rfl
  | some t => exact decide_eq_decide.mpr (lt_minus_iff_val hspan)

theorem getD_map_val (o : Option Instant) (t : Instant) :
    (o.map Bounded.val).getD t.val = (o.getD t).val := by
  cases o <;> rfl

/-! ## 4. The machine commutes with the reading -/

namespace StatusRecord

variable {p : Policy} (r : StatusRecord) (c : Check)

theorem settle_unbounded : (r.settle c).unbounded = r.unbounded.settle c.unbounded := by
  unfold settle
  rw [apply_ite StatusRecord.unbounded]
  rfl

theorem prune_unbounded {window : Instant} (hw : window < Instant.latest) (now : Instant) :
    (r.prune now window).unbounded = r.unbounded.prune now.val window.val := by
  have hkept : (r.flappingTimes.filter (inWindow now window)).map Bounded.val =
      (r.flappingTimes.map Bounded.val).filter (Unbounded.inWindow now.val window.val) := by
    rw [List.filter_map]
    refine congrArg _ (List.filter_congr fun t _ => ?_)
    exact inWindow_eq_unbounded hw
  exact congrArg (fun l => { r.unbounded with flappingTimes := l }) hkept

theorem noteOscillation_unbounded :
    (r.noteOscillation c).unbounded = r.unbounded.noteOscillation c.unbounded := by
  have hnoted : (r.flappingTimes ++ [c.timestamp]).map Bounded.val =
      r.flappingTimes.map Bounded.val ++ [c.timestamp.val] := List.map_append
  unfold noteOscillation
  rw [apply_ite StatusRecord.unbounded]
  exact congrArg (fun l => if c.state = r.state then r.unbounded else
    { r.unbounded with flappingTimes := l }) hnoted

theorem oscillates_unbounded (r : StatusRecord) (p : Policy) :
    r.oscillates p = r.unbounded.oscillates p.unbounded := by
  refine decide_eq_decide.mpr ?_
  show _ ≤ _ ↔ _ ≤ (r.flappingTimes.map Bounded.val).length
  rw [List.length_map]
  rfl

theorem observe_unbounded (hp : p.Moderate) :
    (r.observe p c).unbounded = r.unbounded.observe p.unbounded c.unbounded := by
  unfold observe
  rw [prune_unbounded _ hp.flappingTime.2, noteOscillation_unbounded]
  rfl

theorem processOff_unbounded : (r.processOff c).unbounded = r.unbounded.processOff c.unbounded := by
  unfold processOff
  rw [apply_ite StatusRecord.unbounded]
  rfl

theorem processOngoing_unbounded (hp : p.Moderate) :
    (r.processOngoing p c).unbounded = r.unbounded.processOngoing p.unbounded c.unbounded := by
  have hsince : r.unbounded.pendingTime.getD r.unbounded.lastStateChange =
      (r.pendingTime.getD r.lastStateChange).val := getD_map_val _ _
  unfold processOngoing Unbounded.Record.processOngoing
  dsimp only
  rw [← observe_unbounded r c hp, ← oscillates_unbounded, hsince,
    elapsed_eq_unbounded hp.stealthyTime.2, elapsed_eq_unbounded hp.flappingTime.2]
  -- The conditions are the same on both sides, and the reading goes into the branches.
  simp only [apply_ite StatusRecord.unbounded]
  rfl

theorem processStealthy_unbounded (hp : p.Moderate) :
    (r.processStealthy p c).unbounded = r.unbounded.processStealthy p.unbounded c.unbounded := by
  have hsince : r.unbounded.stealthyTime.getD r.unbounded.timestamp =
      (r.stealthyTime.getD r.timestamp).val := getD_map_val _ _
  unfold processStealthy Unbounded.Record.processStealthy
  dsimp only
  rw [← observe_unbounded r c hp, ← oscillates_unbounded, ← settle_unbounded, hsince,
    elapsed_eq_unbounded hp.stealthyTime.2]
  simp only [apply_ite StatusRecord.unbounded]
  rfl

theorem processFlapping_unbounded (hp : p.Moderate) :
    (r.processFlapping p c).unbounded = r.unbounded.processFlapping p.unbounded c.unbounded := by
  unfold processFlapping Unbounded.Record.processFlapping
  dsimp only
  rw [← observe_unbounded r c hp, ← oscillates_unbounded, ← settle_unbounded,
    apply_ite StatusRecord.unbounded]
  rfl

theorem processCanceled_unbounded :
    (r.processCanceled p c).unbounded = r.unbounded.processCanceled p.unbounded c.unbounded := by
  unfold processCanceled
  rw [apply_ite StatusRecord.unbounded, settle_unbounded]
  rfl

theorem stamp_unbounded (hp : p.Moderate) :
    (r.stamp p c).unbounded = r.unbounded.stamp p.unbounded c.unbounded := by
  unfold stamp
  dsimp only
  rw [prune_unbounded _ hp.flappingTime.2]
  by_cases h : c.state = r.state
  · rw [if_pos h, Unbounded.Record.stamp, if_pos (show c.unbounded.state = r.unbounded.state from h)]
    rfl
  · rw [if_neg h, Unbounded.Record.stamp, if_neg (show ¬ c.unbounded.state = r.unbounded.state from h)]
    rfl

theorem applyRule_unbounded (hp : p.Moderate) (rule : Status) :
    (rule.applyRule r p c).unbounded =
      Unbounded.Record.applyRule rule r.unbounded p.unbounded c.unbounded := by
  cases rule with
  | off => exact processOff_unbounded r c
  | ongoing => exact processOngoing_unbounded r c hp
  | stealthy => exact processStealthy_unbounded r c hp
  | flapping => exact processFlapping_unbounded r c hp
  | canceled => exact processCanceled_unbounded r c

theorem next_unbounded (hp : p.Moderate) :
    (r.next p c).unbounded = r.unbounded.next p.unbounded c.unbounded := by
  rw [next, stamp_unbounded _ _ hp, applyRule_unbounded _ _ hp]
  rfl

theorem resolve_unbounded (hp : p.Moderate) (now : Instant) :
    (r.resolve p now).unbounded = r.unbounded.resolve p.unbounded now.val := by
  have hvalue : r.unbounded.value = r.value := rfl
  unfold resolve Unbounded.Record.resolve
  dsimp only
  rw [hvalue]
  cases r.value with
  | stealthy => exact settle_unbounded r _
  | flapping =>
    show (ite _ _ _ : StatusRecord).unbounded = ite _ _ _
    rw [apply_ite StatusRecord.unbounded, oscillates_unbounded, settle_unbounded,
      prune_unbounded _ hp.flappingTime.2]
    rfl
  | off | ongoing | canceled => rfl

/-- Two records differ exactly if they differ without bounds, so the flag agrees as well. -/
theorem expire_unbounded (hp : p.Moderate) (now : Instant) :
    ((r.expire p now).1.unbounded, (r.expire p now).2) =
      r.unbounded.expire p.unbounded now.val := by
  refine Prod.ext (resolve_unbounded r hp now) ?_
  show decide (r.resolve p now ≠ r) = decide (r.unbounded.resolve _ _ ≠ r.unbounded)
  rw [← resolve_unbounded r hp]
  exact decide_eq_decide.mpr (not_congr unbounded_injective.eq_iff.symm)

theorem isExpired_unbounded {stealthyShow flappingTime : Instant} (hs : 0 ≤ stealthyShow.val)
    (hf : 0 ≤ flappingTime.val) (now : Instant) :
    r.isExpired now stealthyShow flappingTime =
      r.unbounded.isExpired now.val stealthyShow.val flappingTime.val := by
  have hvalue : r.unbounded.value = r.value := rfl
  unfold isExpired outlasts Unbounded.Record.isExpired Unbounded.Record.outlasts
  rw [hvalue]
  cases r.value with
  | stealthy => exact any_lt_minus hs r.stealthyTime
  | flapping =>
    show r.oldestFlap.any _ = (r.flappingTimes.map Bounded.val).head?.any _
    rw [any_lt_minus hf, List.head?_map]
    rfl
  | off | ongoing | canceled => rfl

end StatusRecord

/-! ## 5. The query for expired records -/

namespace Unbounded

/-- Whether the expiry query selects a row. -/
def selects (row : StatusRow) (stealthyBefore flappingBefore : Int) : Bool :=
  (row.value = Status.stealthy.code.val &&
    (row.stealthyTime.map Bounded.val).any fun t => t < stealthyBefore) ||
  (row.value = Status.flapping.code.val &&
    (row.oldestFlap.map Bounded.val).any fun t => t < flappingBefore)

/-- What a sweep finds in a store: the expired records of one in memory, and the selected rows of one in
tables, decoded. -/
def expiredIn (l : Limits) (now : Int) :
    Backend → Except StoreError (List (String × StatusRecord))
  | .memory s => .ok <| s.statuses.entries.filter fun e =>
      e.2.unbounded.isExpired now l.stealthyShow l.flappingTime
  | .tables s =>
      (s.statuses.entries.filter fun e =>
        selects e.2 (now - l.stealthyShow) (now - l.flappingTime)).mapM fun e =>
          (TableStore.decode e.2.doc).map fun r => (e.1, r)

end Unbounded

theorem StatusRow.outlasts_minus {stealthyShow flappingTime : Instant} (hs : 0 ≤ stealthyShow.val)
    (hf : 0 ≤ flappingTime.val) (row : StatusRow) :
    row.outlasts (now.minus stealthyShow) (now.minus flappingTime) =
      Unbounded.selects row (now.val - stealthyShow.val) (now.val - flappingTime.val) := by
  rw [outlasts, any_lt_minus hs, any_lt_minus hf]
  rfl

theorem Tracker.findExpired_unbounded {t : Tracker} (ht : t.policy.Moderate) (now : Instant)
    (b : Backend) :
    (t.findExpired now).runOn b =
      ((Unbounded.expiredIn t.policy.unbounded now.val b).mapError .store, b) := by
  have hs := ht.stealthyShow.1
  have hf := ht.flappingTime.1
  cases b with
  | memory s =>
    have hkept : s.expired (now.minus t.policy.stealthyShow) (now.minus t.policy.flappingTime) =
        s.statuses.entries.filter fun e =>
          e.2.unbounded.isExpired now.val t.policy.stealthyShow.val t.policy.flappingTime.val :=
      List.filter_congr fun e _ => e.2.isExpired_unbounded hs hf now
    exact congrArg (fun l => (Except.ok l, Backend.memory s)) hkept
  | tables s =>
    have hkept : (s.statuses.entries.filter fun e =>
          e.2.outlasts (now.minus t.policy.stealthyShow) (now.minus t.policy.flappingTime)) =
        s.statuses.entries.filter fun e => Unbounded.selects e.2
          (now.val - t.policy.stealthyShow.val) (now.val - t.policy.flappingTime.val) :=
      List.filter_congr fun e _ => e.2.outlasts_minus hs hf
    show ((s.expired _ _).mapError _, _) = _
    rw [TableStore.expired, hkept]
    rfl

/-! ## 6. All of it at once -/

/-- **Saturation decides nothing.** With moderate thresholds a step of the machine, the resolution of a
record with its flag, the test whether a record is expired and what a sweep finds in a store are those
of the machine without bounds, for every record, check and time of the 64-bit range, whether or not a
run can reach them.

Both bounds on the thresholds (`ht`) are needed. At the largest threshold no span elapses, however far
apart the times are, and at a negative one a window that starts after the largest time starts there. -/
theorem Tracker.saturation_decides_nothing {t : Tracker} (ht : t.policy.Moderate) (r : StatusRecord)
    (c : Check) (now : Instant) (b : Backend) :
    (r.next t.policy c).unbounded = r.unbounded.next t.policy.unbounded c.unbounded ∧
    ((r.expire t.policy now).1.unbounded, (r.expire t.policy now).2) =
      r.unbounded.expire t.policy.unbounded now.val ∧
    r.isExpired now t.policy.stealthyShow t.policy.flappingTime =
      r.unbounded.isExpired now.val t.policy.unbounded.stealthyShow t.policy.unbounded.flappingTime ∧
    (t.findExpired now).runOn b =
      ((Unbounded.expiredIn t.policy.unbounded now.val b).mapError .store, b) :=
  ⟨r.next_unbounded c ht, r.expire_unbounded ht now,
    r.isExpired_unbounded ht.stealthyShow.1 ht.flappingTime.1 now, t.findExpired_unbounded ht now b⟩

/-- Thresholds one below the largest number. -/
def Policy.widest : Policy :=
  let span := Instant.latest.nearest 9223372036854775806
  { Policy.standard with flappingFreq := 2, flappingTime := span, stealthyTime := span,
                         stealthyShow := span }

/-- A record that flaps since the earliest time. -/
def StatusRecord.oldest : StatusRecord where
  value := .flapping
  state := CheckState.ok.nearest 2
  timestamp := .earliest
  lastStateChange := .earliest
  pendingTime := some .earliest
  stealthyTime := none
  flappingTimes := [.earliest]
  routingKey := none

/-- From the earliest time to the latest one the difference is cut off, and the record still leaves the
status it had and is found by a sweep, as it is without bounds. -/
theorem Tracker.saturation_decides_nothing_from_end_to_end :
    let t : Tracker := ⟨.standard, .widest⟩
    let r := StatusRecord.oldest
    let c : Check := ⟨.ok, .latest⟩
    let b : Backend := .memory ⟨.ofList [("host", r)], .empty, []⟩
    (Instant.latest.minus Instant.earliest).val ≠ Instant.latest.val - Instant.earliest.val ∧
    t.policy.Moderate ∧ (r.next t.policy c).value = .off ∧
    r.isExpired .latest t.policy.stealthyShow t.policy.flappingTime = true ∧
    (r.next t.policy c).unbounded = r.unbounded.next t.policy.unbounded c.unbounded ∧
    ((r.expire t.policy .latest).1.unbounded, (r.expire t.policy .latest).2) =
      r.unbounded.expire t.policy.unbounded Instant.latest.val ∧
    r.isExpired .latest t.policy.stealthyShow t.policy.flappingTime =
      r.unbounded.isExpired Instant.latest.val t.policy.unbounded.stealthyShow
        t.policy.unbounded.flappingTime ∧
    (t.findExpired .latest).runOn b =
      ((Unbounded.expiredIn t.policy.unbounded Instant.latest.val b).mapError .store, b) :=
  have hmoderate : Policy.widest.Moderate := ⟨by decide, by decide, by decide⟩
  ⟨by decide, hmoderate, by decide, by decide,
    Tracker.saturation_decides_nothing (t := ⟨.standard, .widest⟩) hmoderate _ _ _ _⟩

end AlertStatus
