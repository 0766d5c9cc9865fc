import AlertStatus.Store.Fault
import AlertStatus.Store.Table

/-!
# The kinds of store

A store in memory or one in tables, behind one interface.
-/

set_option autoImplicit false

namespace AlertStatus

/-- A store of either kind. -/
inductive Backend where
  | memory (s : MemoryStore)
  | tables (s : TableStore)
deriving DecidableEq

namespace Backend

/-- Runs the action that fits the kind of store. -/
def either {ε α : Type} (m : Action MemoryStore ε α) (t : Action TableStore ε α) :
    Action Backend ε α := fun s =>
  match s with
  | .memory s => ((m.runOn s).1, .memory (m.runOn s).2)
  | .tables s => ((t.runOn s).1, .tables (t.runOn s).2)

/-- What the store counts: log entries in memory, status rows in tables. -/
def count : Backend → Nat
  | .memory s => s.log.length
  | .tables s => s.statuses.size

end Backend

instance : Store Backend where
  getStatus id := Backend.either (Store.getStatus id) (Store.getStatus id)
  putStatus id r := Backend.either (Store.putStatus id r) (Store.putStatus id r)
  expiredStatuses a b := Backend.either (Store.expiredStatuses a b) (Store.expiredStatuses a b)
  getEvent rk := Backend.either (Store.getEvent rk) (Store.getEvent rk)
  putEvent rk e := Backend.either (Store.putEvent rk e) (Store.putEvent rk e)
  updateEvent rk change := Backend.either (Store.updateEvent rk change) (Store.updateEvent rk change)
  appendLog entry := Backend.either (Store.appendLog entry) (Store.appendLog entry)
  getLog rk := Backend.either (Store.getLog rk) (Store.getLog rk)

end AlertStatus
