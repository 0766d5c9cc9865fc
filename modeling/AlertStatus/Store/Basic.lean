import AlertStatus.Data.Action
import AlertStatus.Event.Document

/-!
# Stores

A store keeps one status record per entity, one live event per routing key, and a log of events that is
only ever added to. `Store` is what the engine asks of one; an operation may fail, and whether it does or
not it leaves a store behind.
-/

set_option autoImplicit false

namespace AlertStatus

/-- Why a store operation failed. -/
inductive StoreError where
  | backend
  | encoding
  | migration (detail : String)
  | unreadable
  | duplicate (key : String)
  | notFound
deriving DecidableEq

/-- The message of an error. What a library would add about its own failure is left out. -/
def StoreError.message : StoreError → String
  | .backend => "SQLite error: "
  | .encoding => "Serialization error: "
  | .migration detail => "Migration error: " ++ detail
  | .unreadable => "Malformed document: "
  | .duplicate key => "Duplicate key: " ++ key
  | .notFound => "Not found"

class Store (σ : Type) where
  getStatus : String → Action σ StoreError (Option StatusRecord)
  putStatus : String → StatusRecord → Action σ StoreError Unit
  /-- The records that are stealthy since before the first time, or flapping with their oldest
  oscillation before the second, in order of their entities. -/
  expiredStatuses : Instant → Instant → Action σ StoreError (List (String × StatusRecord))
  getEvent : String → Action σ StoreError (Option Event)
  putEvent : String → Event → Action σ StoreError Unit
  /-- Applies a partial update to a live event; a null takes its field away. -/
  updateEvent : String → Fields → Action σ StoreError Unit
  /-- Adds an entry to the log. Its id must be new. -/
  appendLog : LogEntry → Action σ StoreError Unit
  /-- The entries of a routing key, oldest first. -/
  getLog : String → Action σ StoreError (List LogEntry)

end AlertStatus
