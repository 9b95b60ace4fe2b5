import SqlMapper.Connection.Call

/-!
A server that writes down what it is asked, and whose calls can be made to fail before the server
behind it sees them. It has a clock of its own, which goes on by a nanosecond whenever it is read.
-/

namespace SqlMapper

def Call.name : Call → String
  | .close => "close"
  | .isClosed => "is_closed"
  | .autoCommit => "auto_commit"
  | .setAutoCommit _ => "set_auto_commit"
  | .commit => "commit"
  | .rollback => "rollback"
  | .execute _ => "execute"
  | .query _ _ => "query"
  | .update _ _ => "update"
  | .setIsolation _ => "set_transaction_isolation"
  | .setNetworkTimeout _ => "set_network_timeout"

def Call.argument : Call → String
  | .setAutoCommit on => toString on
  | .execute sql | .query sql _ | .update sql _ => sql
  | .setIsolation level => level.name
  | .setNetworkTimeout timeout => toString (timeout.nanos / Nat.pow 10 6)
  | .close | .isClosed | .autoCommit | .commit | .rollback => ""

inductive ServerEvent where
  | connected (connection : Nat) (url : String) (properties : Entries String)
  | refused (url : String)
  | called (connection : Nat) (call : Call)
  | noted (text : String)

def ServerEvent.describe : ServerEvent → String
  | .connected connection url properties =>
    let pairs := properties.map fun p => p.1 ++ "=" ++ p.2
    toString connection ++ ":connect(" ++ url ++ ";" ++ ",".intercalate pairs ++ ")"
  | .refused url => "connect failed(" ++ url ++ ")"
  | .called connection call =>
    toString connection ++ ":" ++ call.name ++ "(" ++ call.argument ++ ")"
  | .noted text => text

structure Recorder (ω : Type) where
  server : ω
  /-- What happened, the latest event first. -/
  events : List ServerEvent
  fails : Call → Bool
  now : Instant

namespace Recorder

variable {ω : Type}

def start (server : ω) : Recorder ω := ⟨server, [], fun _ => false, ⟨0⟩⟩

def record (event : ServerEvent) (r : Recorder ω) : Recorder ω :=
  { r with events := event :: r.events }

def change (f : ω → ω) (r : Recorder ω) : Recorder ω := { r with server := f r.server }

variable [Server ω]

def connect (url : String) (properties : Entries String) (r : Recorder ω) :
    Except Error Nat × Recorder ω :=
  match Server.connect url properties r.server with
  | (.ok connection, server) =>
    (.ok connection, { r with server := server }.record (.connected connection url properties))
  | (.error e, server) => (.error e, { r with server := server }.record (.refused url))

/-- The answer to a call. One that fails does not reach the server, except that a connection is
closed before closing it fails. -/
def answer (connection : Nat) (call : Call) (r : Recorder ω) :
    Except Error call.Reply × Recorder ω :=
  if r.fails call then
    let r := if call = .close then r.change (fun s => (Server.perform connection .close s).2) else r
    (.error (.connection ("injected " ++ call.name)), r)
  else
    let (reply, server) := Server.perform connection call r.server
    (reply, { r with server := server })

instance : Server (Recorder ω) where
  connect := Recorder.connect
  perform connection call r := (r.record (.called connection call)).answer connection call

instance : Clock (Recorder ω) where
  read r := (⟨r.now.nanos + 1⟩, { r with now := ⟨r.now.nanos + 1⟩ })
  waitUntil t r := { r with now := ⟨max r.now.nanos t.nanos⟩ }

end Recorder
end SqlMapper
