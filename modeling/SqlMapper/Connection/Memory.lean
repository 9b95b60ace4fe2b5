import SqlMapper.Connection.Call

/-!
A server in memory. It records the statements that it is given, answers queries by a function,
counts what happens to its connections, and can be told to fail.
-/

namespace SqlMapper

structure MemoryConnection where
  closed : Bool
  autoCommit : Bool
  isolation : Option Isolation
  networkTimeout : Option Duration
  deriving DecidableEq, Repr

structure RunStatement where
  connection : Nat
  sql : String
  params : List Value
  deriving DecidableEq

structure MemoryServer where
  /-- The connections by their numbers; the first one has the number 1. -/
  connections : List (Nat × MemoryConnection)
  opened : Nat
  closed : Nat
  rollbacks : Nat
  refusesConnections : Bool
  refusesStatements : Bool
  autoCommit : Bool
  /-- The rows of a query; without it, every query has none. -/
  answer : Option (String → List Value → Except Error (List Row))
  statements : List RunStatement
  lastProperties : Entries String

namespace MemoryServer

def start (autoCommit : Bool) : MemoryServer where
  connections := []
  opened := 0
  closed := 0
  rollbacks := 0
  refusesConnections := false
  refusesStatements := false
  autoCommit := autoCommit
  answer := none
  statements := []
  lastProperties := []

def open? (s : MemoryServer) (connection : Nat) : Option MemoryConnection :=
  (s.connections.lookup connection).filter (!·.closed)

def change (connection : Nat) (f : MemoryConnection → MemoryConnection) (s : MemoryServer) :
    MemoryServer :=
  { s with connections := s.connections.map fun e => if e.1 == connection then (e.1, f e.2) else e }

def connect (url : String) (properties : Entries String) (s : MemoryServer) :
    Except Error Nat × MemoryServer :=
  if s.refusesConnections then (.error (.connection ("cannot connect to " ++ url)), s)
  else
    let number := s.opened + 1
    (.ok number,
      { s with
        connections := s.connections ++ [(number, ⟨false, s.autoCommit, none, none⟩)]
        opened := number
        lastProperties := properties })

def close (connection : Nat) (s : MemoryServer) : MemoryServer :=
  match s.open? connection with
  | some _ => { s.change connection ({ · with closed := true }) with closed := s.closed + 1 }
  | none => s

/-- Marks every connection as closed without counting it, as if the server had gone away. -/
def vanish (s : MemoryServer) : MemoryServer :=
  { s with connections := s.connections.map fun e => (e.1, { e.2 with closed := true }) }

def whenOpen {α : Type} (connection : Nat) (s : MemoryServer)
    (f : MemoryConnection → Except Error α × MemoryServer) : Except Error α × MemoryServer :=
  match s.open? connection with
  | some c => f c
  | none =>
    (.error (.connection ("memory connection " ++ toString connection ++ " is closed")), s)

def run {α : Type} (connection : Nat) (sql : String) (params : List Value) (s : MemoryServer)
    (result : Except Error α) : Except Error α × MemoryServer :=
  s.whenOpen connection fun _ =>
    if s.refusesStatements then
      (.error (.connection ("statement failed on memory connection " ++ toString connection)), s)
    else (result, { s with statements := s.statements ++ [⟨connection, sql, params⟩] })

def rows (s : MemoryServer) (sql : String) (params : List Value) : Except Error (List Row) :=
  match s.answer with
  | some answer => answer sql params
  | none => .ok []

def perform (connection : Nat) (call : Call) (s : MemoryServer) :
    Except Error call.Reply × MemoryServer :=
  match call with
  | .close => (.ok (), s.close connection)
  | .isClosed => (.ok (s.open? connection).isNone, s)
  | .autoCommit => s.whenOpen connection fun c => (.ok c.autoCommit, s)
  | .setAutoCommit on =>
    s.whenOpen connection fun _ => (.ok (), s.change connection ({ · with autoCommit := on }))
  | .commit => s.whenOpen connection fun _ => (.ok (), s)
  | .rollback =>
    s.whenOpen connection fun _ => (.ok (), { s with rollbacks := s.rollbacks + 1 })
  | .execute sql => s.run connection sql [] (.ok ())
  | .query sql params => s.run connection sql params (s.rows sql params)
  | .update sql params => s.run connection sql params (.ok 1)
  | .setIsolation level =>
    s.whenOpen connection fun _ =>
      (.ok (), s.change connection ({ · with isolation := some level }))
  | .setNetworkTimeout timeout =>
    s.whenOpen connection fun _ =>
      (.ok (), s.change connection ({ · with networkTimeout := some timeout }))

instance : Server MemoryServer where
  connect := MemoryServer.connect
  perform := MemoryServer.perform

end MemoryServer
end SqlMapper
