import SqlMapper.Connection.Isolation
import SqlMapper.Time
import SqlMapper.Value.Basic

/-!
Calls on open connections, and the servers that answer them. A server is any total function on an
abstract state: whatever it answers, also when it refuses, it may have changed.
-/

namespace SqlMapper

inductive Call where
  | close
  | isClosed
  | autoCommit
  | setAutoCommit (on : Bool)
  | commit
  | rollback
  | execute (sql : String)
  | query (sql : String) (params : List Value)
  | update (sql : String) (params : List Value)
  | setIsolation (level : Isolation)
  | setNetworkTimeout (timeout : Duration)
  deriving DecidableEq

abbrev Call.Reply : Call → Type
  | .isClosed | .autoCommit => Bool
  | .query _ _ => List Row
  | .update _ _ => Nat
  | .close | .setAutoCommit _ | .commit | .rollback | .execute _ | .setIsolation _
  | .setNetworkTimeout _ => Unit

class Server (ω : Type) where
  connect : (url : String) → (properties : Entries String) → ω → Except Error Nat × ω
  perform : (connection : Nat) → (call : Call) → ω → Except Error call.Reply × ω

abbrev Action (ω α : Type) := ExceptT Error (StateM ω) α

namespace Connection

variable {ω : Type} [Server ω]

def connect (url : String) (properties : Entries String) : Action ω Nat :=
  ExceptT.mk (Server.connect url properties)

def perform (connection : Nat) (call : Call) : Action ω call.Reply :=
  ExceptT.mk (Server.perform connection call)

def rollBackIfNeeded (connection : Nat) : Action ω Unit := do
  let commits ← perform connection .autoCommit
  if !commits then perform connection .rollback

/-- Closes a connection after undoing what was not committed. Nothing that fails on the way keeps it
from being closed. -/
def closeQuietly (connection : Nat) : StateM ω Unit := do
  if let .ok false ← (perform connection .autoCommit).run then
    let _ ← (perform connection .rollback).run
  let _ ← (perform connection .close).run

end Connection
end SqlMapper
