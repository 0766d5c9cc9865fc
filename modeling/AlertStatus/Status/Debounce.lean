import AlertStatus.Data.Bounded

/-!
# Debouncing check states

A new check state replaces the adopted one only after it was counted as often as its level asks for. A
third state in between starts the count again.
-/

set_option autoImplicit false

namespace AlertStatus

/-- How readily a new state is adopted. -/
inductive DebounceLevel where
  | hard
  | soft
deriving DecidableEq

/-- How often a new state has to be counted before it is adopted. -/
def DebounceLevel.needed : DebounceLevel → UInt32
  | .hard => 3
  | .soft => 1

/-- The adopted state, and the candidate that is being counted. -/
structure Debounce where
  state : CheckState
  candidate : CheckState
  count : UInt32
deriving DecidableEq

namespace Debounce

/-- The first state is adopted at once. -/
def first (state : CheckState) : Debounce := ⟨state, state, 1⟩

/-- The candidate and its count after `state`, which is not the adopted one. -/
def tally (d : Debounce) (state : CheckState) : Debounce :=
  if state = d.candidate then { d with count := d.count + 1 }
  else { d with candidate := state, count := 1 }

/-- Counts `state` towards replacing the adopted one. -/
def push (d : Debounce) (level : DebounceLevel) (state : CheckState) : Debounce :=
  if state = d.state then d
  else
    let counted := d.tally state
    if level.needed ≤ counted.count then { counted with state := state, count := 1 } else counted

/-- Counts `state`, starting with it when there is nothing before it. -/
def next (d : Option Debounce) (level : DebounceLevel) (state : CheckState) : Debounce :=
  match d with
  | none => first state
  | some d => d.push level state

end Debounce
end AlertStatus
