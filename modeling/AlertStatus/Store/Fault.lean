import AlertStatus.Store.Basic

/-!
# Stores that fail

A plan of faults in front of a store. A fault names an operation, an error, the key it waits for (any,
when it names none) and how often it strikes (always, when it has no count). The first fault of the plan
that applies strikes before the store is touched; one that is used up is passed over.
-/

set_option autoImplicit false

namespace AlertStatus

/-- The operations of a store, as faults name them. -/
inductive StoreMethod where
  | getStatus
  | putStatus
  | expiredStatuses
  | getEvent
  | putEvent
  | updateEvent
  | appendLog
  | getLog
deriving DecidableEq

/-- An error that an operation will give instead of doing its work. -/
structure Fault where
  method : StoreMethod
  error : StoreError
  key : Option String
  /-- How often the fault still strikes; always, when there is no count. -/
  remaining : Option Nat
deriving DecidableEq

namespace Fault

/-- Whether the fault strikes a call of `method` on `key`. -/
def applies (f : Fault) (method : StoreMethod) (key : String) : Bool :=
  f.method = method && f.key.all (fun k => k = key) && f.remaining ≠ some 0

/-- The fault after it struck once. -/
def used (f : Fault) : Fault := { f with remaining := f.remaining.map fun n => n - 1 }

/-- The error of the first fault that applies, and the plan after it struck. -/
def strike (method : StoreMethod) (key : String) : List Fault → Option (StoreError × List Fault)
  | [] => none
  | f :: rest =>
    if f.applies method key then some (f.error, f.used :: rest)
    else (strike method key rest).map fun r => (r.1, f :: r.2)

end Fault

/-- A store behind a plan of faults. -/
structure FaultyStore (σ : Type) where
  faults : List Fault
  store : σ
deriving DecidableEq

namespace FaultyStore

variable {σ ε α : Type}

def of (s : σ) : FaultyStore σ := ⟨[], s⟩

/-- Runs an action on the store behind the plan. -/
def inside (x : Action σ ε α) : Action (FaultyStore σ) ε α := fun s =>
  ((x.runOn s.store).1, { s with store := (x.runOn s.store).2 })

/-- Runs an operation unless a fault strikes it. -/
def guarded (method : StoreMethod) (key : String) (x : Action σ StoreError α) :
    Action (FaultyStore σ) StoreError α := fun s =>
  match Fault.strike method key s.faults with
  | some (e, faults) => (.error e, { s with faults })
  | none => (inside x).runOn s

end FaultyStore

instance {σ : Type} [Store σ] : Store (FaultyStore σ) where
  getStatus id := FaultyStore.guarded .getStatus id (Store.getStatus id)
  putStatus id r := FaultyStore.guarded .putStatus id (Store.putStatus id r)
  expiredStatuses stealthyBefore flappingBefore :=
    FaultyStore.guarded .expiredStatuses "" (Store.expiredStatuses stealthyBefore flappingBefore)
  getEvent rk := FaultyStore.guarded .getEvent rk (Store.getEvent rk)
  putEvent rk e := FaultyStore.guarded .putEvent rk (Store.putEvent rk e)
  updateEvent rk change := FaultyStore.guarded .updateEvent rk (Store.updateEvent rk change)
  appendLog entry := FaultyStore.guarded .appendLog entry.routingKey (Store.appendLog entry)
  getLog rk := FaultyStore.guarded .getLog rk (Store.getLog rk)

end AlertStatus
