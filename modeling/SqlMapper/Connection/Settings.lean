import SqlMapper.Connection.Call

/-!
Connection settings: where to connect, as whom, and what every new connection is set to.
-/

namespace SqlMapper

structure ConnectionSettings where
  url : String
  username : Option String
  password : Option String
  properties : Entries String
  autoCommit : Option Bool
  isolation : Option Isolation
  networkTimeout : Option Duration
  deriving DecidableEq

namespace ConnectionSettings

def ofUrl (url : String) : ConnectionSettings := ⟨url, none, none, [], none, none, none⟩

def withProperty (name : String) (value : Option String) (properties : Entries String) :
    Entries String :=
  match value with
  | some v => Entries.insert name v properties
  | none => properties

def connectProperties (s : ConnectionSettings) (username password : Option String) :
    Entries String :=
  withProperty "password" password (withProperty "user" username s.properties)

section

variable {ω : Type} [Server ω]

open Connection

/-- Sets a new connection to what the settings say. Committing by itself is only set where it
differs from what the connection does anyway. -/
def configure (s : ConnectionSettings) (connection : Nat) : Action ω Unit := do
  if let some timeout := s.networkTimeout then
    perform connection (.setNetworkTimeout timeout)
  if let some wanted := s.autoCommit then
    let actual ← perform connection .autoCommit
    if wanted != actual then perform connection (.setAutoCommit wanted)
  if let some level := s.isolation then
    perform connection (.setIsolation level)

def connect (s : ConnectionSettings) (username password : Option String) : Action ω Nat := do
  let connection ← Connection.connect s.url (s.connectProperties username password)
  ExceptT.mk fun w =>
    match (s.configure connection).run w with
    | (.ok (), w) => (.ok connection, w)
    | (.error e, w) => (.error e, ((perform connection .close).run w).2)

end

/-- What tells connections of different urls and credentials apart: the three texts one after the
other, with `null` for a name or a password that is missing. -/
def fingerprint (url : String) (username password : Option String) : String :=
  url ++ username.getD "null" ++ password.getD "null"

end ConnectionSettings

end SqlMapper
