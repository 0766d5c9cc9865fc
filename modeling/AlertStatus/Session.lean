import AlertStatus.Http.Router
import AlertStatus.Store.Backend

/-!
# Sessions

A session is an engine and its tracker and archive over one store behind a plan of faults. Everything
that can be asked of them is a command, so that a run is a list of commands: commands of the engine, of
its tracker or archive alone, of the store, requests to the HTTP interface, and changes of the plan of
faults or of single rows of a store in tables.
-/

set_option autoImplicit false

namespace AlertStatus

/-- What a command gives when it succeeds. -/
inductive Reply where
  | nothing
  | flag (b : Bool)
  | count (n : Nat)
  | entity (id : Option String)
  | record (r : Option StatusRecord)
  | expired (l : List (String × StatusRecord))
  | event (e : Option Event)
  | log (l : List LogEntry)
  | report (r : SweepReport)
  | response (r : Response)
  | policy (p : Policy)
  | settings (names : List String) (p : Policy)
deriving DecidableEq

/-- The reply of an action that only has an effect. -/
def Reply.ofEffect {σ ε : Type} (x : Action σ ε Unit) : Action σ ε Reply := do
  x
  return .nothing

/-- Why a command failed. -/
inductive Failure where
  | store (e : StoreError)
  | status (e : StatusError)
  | engine (e : EngineError)
  /-- Rows exist only in a store in tables. -/
  | noRows
deriving DecidableEq

/-! ## Commands -/

inductive EngineCommand where
  | processEvent (e : Event)
  | sweep (now : Instant)
  | beat (now : Option Instant)
  | cancel (routingKey : String) (remark : Remark)
  | uncancel (routingKey : String) (timestamp : Instant)
  | acknowledge (routingKey : String) (ack : Remark)
  | removeAck (routingKey : String)
  | status (entity : String)
  | event (routingKey : String)
  | history (routingKey : String)
  | policy
deriving DecidableEq

inductive TrackerCommand where
  | process (entity routingKey : String) (c : Check)
  | cancel (entity : String) (timestamp : Instant)
  | uncancel (entity : String) (timestamp : Instant)
  | expire (entity : String) (now : Instant)
  | findExpired (now : Instant)
  | status (entity : String)
  | settings
deriving DecidableEq

inductive ArchiveCommand where
  | process (e : Event)
  | acknowledge (routingKey : String) (ack : Remark)
  | removeAck (routingKey : String)
  | markCanceled (routingKey : String) (cancel : Remark)
  | markUncanceled (routingKey : String) (status : Status)
  | setStatus (routingKey : String) (status : Status)
  | event (routingKey : String)
  | history (routingKey : String)
deriving DecidableEq

inductive StoreCommand where
  | putStatus (entity : String) (r : StatusRecord)
  | getStatus (entity : String)
  | expiredStatuses (stealthyBefore flappingBefore : Instant)
  | putEvent (routingKey : String) (e : Event)
  | getEvent (routingKey : String)
  | updateEvent (routingKey : String) (change : Fields)
  | appendLog (entry : LogEntry)
  | getLog (routingKey : String)
deriving DecidableEq

/-- Changes of single rows. -/
inductive RowCommand where
  | status (entity : String) (row : StatusRow)
  | event (routingKey doc : String)
  | log (row : LogRow)
deriving DecidableEq

/-- All commands of a session. -/
inductive Command where
  | engine (c : EngineCommand)
  | tracker (c : TrackerCommand)
  | archive (c : ArchiveCommand)
  | store (c : StoreCommand)
  | request (r : Request)
  | count
  | fail (f : Fault)
  | heal
  | row (c : RowCommand)
  /-- Opens a store in tables anew, without faults. A store in memory stays as it is. -/
  | reopen

/-! ## Running them -/

namespace EngineCommand

variable {σ : Type} [Store σ]

/-- Runs a command at the clock time `now`. -/
def run (e : Engine) (now : Instant) : EngineCommand → Action σ EngineError Reply
  | .processEvent ev => do return .entity (← e.processEvent now ev)
  | .sweep t => do return .report (← .total (e.sweep t))
  | .beat t => do
    let _ ← .total (e.sweep (t.getD now))
    return .nothing
  | .cancel rk remark => do return .record (some (← Engine.cancel rk remark))
  | .uncancel rk t => do return .record (some (← Engine.uncancel rk t))
  | .acknowledge rk ack => Reply.ofEffect (Engine.acknowledge rk ack)
  | .removeAck rk => Reply.ofEffect (Engine.removeAck rk)
  | .status entity => do return .record (← Engine.status entity)
  | .event rk => do return .event (← Engine.event rk)
  | .history rk => do return .log (← Engine.history rk)
  | .policy => return .policy e.policy

end EngineCommand

namespace TrackerCommand

variable {σ : Type} [Store σ]

def run (t : Tracker) : TrackerCommand → Action σ StatusError Reply
  | .process entity rk c => do return .record (some (← t.process entity rk c))
  | .cancel entity time => do return .record (some (← Tracker.cancel entity time))
  | .uncancel entity time => do return .record (some (← Tracker.uncancel entity time))
  | .expire entity now => do return .record (← t.expire entity now)
  | .findExpired now => do return .expired (← t.findExpired now)
  | .status entity => do return .record (← Tracker.getStatus entity)
  | .settings => return .settings t.table.names t.policy

end TrackerCommand

namespace ArchiveCommand

variable {σ : Type} [Store σ]

/-- Runs a command at the clock time `now`. -/
def run (a : Archive) (now : Instant) : ArchiveCommand → Action σ StoreError Reply
  | .process ev => do return .flag (← a.process now ev)
  | .acknowledge rk ack => Reply.ofEffect (Archive.acknowledge rk ack)
  | .removeAck rk => Reply.ofEffect (Archive.removeAck rk)
  | .markCanceled rk cancel => Reply.ofEffect (Archive.markCanceled rk cancel)
  | .markUncanceled rk status => Reply.ofEffect (Archive.markUncanceled rk status)
  | .setStatus rk status => Reply.ofEffect (Archive.setStatus rk status)
  | .event rk => do return .event (← Store.getEvent rk)
  | .history rk => do return .log (← Store.getLog rk)

end ArchiveCommand

namespace StoreCommand

variable {σ : Type} [Store σ]

def run : StoreCommand → Action σ StoreError Reply
  | .putStatus entity r => Reply.ofEffect (Store.putStatus entity r)
  | .getStatus entity => do return .record (← Store.getStatus entity)
  | .expiredStatuses stealthyBefore flappingBefore => do
    return .expired (← Store.expiredStatuses stealthyBefore flappingBefore)
  | .putEvent rk e => Reply.ofEffect (Store.putEvent rk e)
  | .getEvent rk => do return .event (← Store.getEvent rk)
  | .updateEvent rk change => Reply.ofEffect (Store.updateEvent rk change)
  | .appendLog entry => Reply.ofEffect (Store.appendLog entry)
  | .getLog rk => do return .log (← Store.getLog rk)

end StoreCommand

def RowCommand.apply (c : RowCommand) (s : TableStore) : TableStore :=
  match c with
  | .status entity row => s.putStatusRow entity row
  | .event rk doc => s.putEventRow rk doc
  | .log row => s.putLogRow row

/-- A store of either kind behind a plan of faults. -/
abbrev SessionStore := FaultyStore Backend

namespace Command

/-- Changes single rows of a store in tables. -/
def changeRows (c : RowCommand) (s : SessionStore) : Except Failure SessionStore :=
  match s.store with
  | .memory _ => .error .noRows
  | .tables t => .ok { s with store := .tables (c.apply t) }

def reopened (s : SessionStore) : SessionStore :=
  match s.store with
  | .memory _ => s
  | .tables _ => { s with faults := [] }

/-- Runs a command at the clock time `now`. -/
def run (e : Engine) (now : Instant) : Command → Action SessionStore Failure Reply
  | .engine c => (c.run e now).rename .engine
  | .tracker c => (c.run e.tracker).rename .status
  | .archive c => (c.run e.archive now).rename .store
  | .store c => c.run.rename .store
  | .request r => do return .response (← .total (Router.handle e now r))
  | .count => .look fun s => .count s.store.count
  | .fail f => Reply.ofEffect (.change fun s => { s with faults := s.faults ++ [f] })
  | .heal => Reply.ofEffect (.change fun s => { s with faults := [] })
  | .row c => Reply.ofEffect (.become (changeRows c))
  | .reopen => Reply.ofEffect (.change reopened)

end Command
end AlertStatus
