import AlertStatus.Status.Policy

/-!
# The status machine

Each status has a rule that processes the next check of an entity with that status.

- *off*: an alert makes the entity ongoing and opens a fresh flapping window.
- *ongoing*: a quick recovery is stealthy, a late one off. Changes of state count as oscillations, and
  enough of them within the window make the entity flap.
- *stealthy*: a repeated state or an elapsed window settles the entity; further oscillations may make
  it flap.
- *flapping*: the entity flaps while enough oscillations remain within the window.
- *canceled*: the entity settles and everything remembered about oscillations is dropped.

A span equal to its threshold has not elapsed yet. After its rule a record is stamped with the check
(`StatusRecord.stamp`).
-/

set_option autoImplicit false

namespace AlertStatus

/-- The outcome of a check, to be applied to a status record. -/
structure Check where
  state : CheckState
  timestamp : Instant
deriving DecidableEq

/-- Whether more than `span` seconds lie between `since` and `now`. -/
def elapsed (now since span : Instant) : Bool := span < now.minus since

namespace StatusRecord

def enterOff (r : StatusRecord) : StatusRecord :=
  { r with value := .off, pendingTime := none, stealthyTime := none }

def enterOngoing (r : StatusRecord) (timestamp : Instant) : StatusRecord :=
  { r with value := .ongoing, pendingTime := some timestamp, stealthyTime := none }

/-- Off for a healthy check, ongoing otherwise. -/
def settle (r : StatusRecord) (c : Check) : StatusRecord :=
  if c.state = .ok then r.enterOff else r.enterOngoing c.timestamp

/-- Counts a check whose state differs from the recorded one as an oscillation. -/
def noteOscillation (r : StatusRecord) (c : Check) : StatusRecord :=
  if c.state = r.state then r else { r with flappingTimes := r.flappingTimes ++ [c.timestamp] }

/-- Whether an oscillation at `t` still counts at `now`. -/
def inWindow (now window t : Instant) : Bool := t ≤ now && !elapsed now t window

/-- Keeps the oscillations of the window of length `window` that ends at `now`. -/
def prune (r : StatusRecord) (now window : Instant) : StatusRecord :=
  { r with flappingTimes := r.flappingTimes.filter (inWindow now window) }

/-- Whether the record holds enough oscillations to flap. -/
def oscillates (r : StatusRecord) (p : Policy) : Bool := p.flappingFreq ≤ r.flappingTimes.length

/-- Notes the check and drops the oscillations that are out of the window. -/
def observe (r : StatusRecord) (p : Policy) (c : Check) : StatusRecord :=
  (r.noteOscillation c).prune c.timestamp p.flappingTime

def processOff (r : StatusRecord) (c : Check) : StatusRecord :=
  if c.state = .ok then { r with value := .off }
  else { r with flappingTimes := [c.timestamp] }.enterOngoing c.timestamp

def processOngoing (r : StatusRecord) (p : Policy) (c : Check) : StatusRecord :=
  let since := r.pendingTime.getD r.lastStateChange
  let seen := r.observe p c
  if seen.oscillates p then { seen with value := .flapping, stealthyTime := none }
  else if c.state = .ok then
    if elapsed c.timestamp since p.stealthyTime then seen.enterOff
    else { seen with value := .stealthy, stealthyTime := some since }
  else if c.state = r.state ∧ elapsed c.timestamp since p.flappingTime then
    { seen with pendingTime := some c.timestamp }
  else seen

def processStealthy (r : StatusRecord) (p : Policy) (c : Check) : StatusRecord :=
  let since := r.stealthyTime.getD r.timestamp
  let seen := r.observe p c
  if c.state = r.state ∨ elapsed c.timestamp since p.stealthyTime then seen.settle c
  else if seen.oscillates p then { seen with value := .flapping, stealthyTime := none }
  else { seen with value := .stealthy }

def processFlapping (r : StatusRecord) (p : Policy) (c : Check) : StatusRecord :=
  let seen := r.observe p c
  if seen.oscillates p then { seen with value := .flapping } else seen.settle c

/-- The rule of a canceled entity. Unless changes restore events, it stays canceled while both the
recorded and the new state are alerts. -/
def processCanceled (r : StatusRecord) (p : Policy) (c : Check) : StatusRecord :=
  if p.restoreEvent = false ∧ c.state ≠ .ok ∧ r.state ≠ .ok then r
  else { r with flappingTimes := [] }.settle c

/-- Stamps a record with the check that was processed. -/
def stamp (r : StatusRecord) (p : Policy) (c : Check) : StatusRecord :=
  let changed :=
    if c.state = r.state then r else { r with lastStateChange := c.timestamp, state := c.state }
  { changed with timestamp := c.timestamp }.prune c.timestamp p.flappingTime

/-- Resolves a stealthy or flapping record at `now` without a check. -/
def resolve (r : StatusRecord) (p : Policy) (now : Instant) : StatusRecord :=
  let c : Check := ⟨r.state, now⟩
  match r.value with
  | .stealthy => r.settle c
  | .flapping =>
    let kept := r.prune now p.flappingTime
    if kept.oscillates p then kept else kept.settle c
  | _ => r

/-- Resolves a record at `now`, and tells whether that changed it. -/
def expire (r : StatusRecord) (p : Policy) (now : Instant) : StatusRecord × Bool :=
  let resolved := r.resolve p now
  (resolved, resolved ≠ r)

end StatusRecord

namespace Status

/-- Applies the rule of a status. The record still holds the previous state. -/
def applyRule (rule : Status) (r : StatusRecord) (p : Policy) (c : Check) : StatusRecord :=
  match rule with
  | .off => r.processOff c
  | .ongoing => r.processOngoing p c
  | .stealthy => r.processStealthy p c
  | .flapping => r.processFlapping p c
  | .canceled => r.processCanceled p c

def ruleGroup : String := "statusmanager."

/-- The path under which a status table names the rule of a status. -/
def rulePath (s : Status) : String := ruleGroup ++ s.name

/-- What follows the group in a path. The group may be left out, and is taken away once. -/
def ruleName (path : String) : String :=
  match ruleGroup.toList.isPrefixOf? path.toList with
  | none => path
  | some name => .ofList name

/-- The status whose rule has the given path. -/
def ofRulePath? (path : String) : Option Status :=
  all.find? fun s => s.name = ruleName path

end Status

namespace StatusRecord

/-- One step of the machine: the rule of the record's status, then the stamp. -/
def next (r : StatusRecord) (p : Policy) (c : Check) : StatusRecord :=
  (r.value.applyRule r p c).stamp p c

end StatusRecord
end AlertStatus
