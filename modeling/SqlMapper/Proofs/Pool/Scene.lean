import SqlMapper.Pool.Run
import SqlMapper.Proofs.Ledger

/-!
A pool among everybody who uses it. In every step one of them goes through one section that nobody
disturbs, with the pool or with one physical connection for itself. The server behind the pool
answers as it likes.
-/

namespace SqlMapper

structure Ongoing where
  wrapper : Nat
  connection : Nat
  call : Call

structure Scene (ω : Type) where
  pool : Pool
  ledger : Ledger ω
  acquisitions : List Acquisition
  /-- Every handle that was ever handed out, in the order of the hand-outs. -/
  handles : List Handle
  calls : List Ongoing
  /-- What the operations that work on the whole pool have left to do, each in its order. -/
  chores : List (List Chore)

inductive Scene.Event (ω : Type) where
  | acquire (username password : Option String)
  | proceed (acquisition : Nat)
  | ask (handle : Nat) (call : Call)
  | answer (call : Nat)
  | giveBack (handle : Nat)
  | forceCloseAll
  | reconfigure (config : PoolConfig) (settings : ConnectionSettings)
  | interrupt
  | goOn (operation : Nat)
  | drop
  | disturb (change : ω → ω)

def Acquisition.connection? (a : Acquisition) : Option Nat :=
  match a.phase with
  | .checking slot _ _ (test :: _) =>
    if test = .live then none else some slot.physical.connection
  | .discarding slot _ => some slot.physical.connection
  | _ => none

def Chore.connection? : Chore → Option Nat
  | .wakeAll => none
  | .close slot => some slot.physical.connection

namespace Scene

variable {ω : Type}

def start (settings : ConnectionSettings) (config : PoolConfig) (server : ω) : Scene ω :=
  ⟨.start settings config, .start server, [], [], [], []⟩

def isBusy (s : Scene ω) (connection : Nat) : Bool :=
  s.calls.any (·.connection == connection)

def put (i : Nat) (a : Acquisition) (s : Scene ω) : Scene ω :=
  match a.result? with
  | none => { s with acquisitions := s.acquisitions.set i a }
  | some (.error _) => { s with acquisitions := s.acquisitions.eraseIdx i }
  | some (.ok h) =>
    { s with acquisitions := s.acquisitions.eraseIdx i, handles := s.handles ++ [h] }

def tearDown (p : Pool) (s : Scene ω) : Scene ω :=
  let (chores, p) := p.tearDown
  { s with pool := p, chores := s.chores ++ [chores] }

variable [Server ω] [Clock ω]

/-- The next section of an acquisition that is not over. It has to wait while a holder's call has
the connection that it needs; one that waits to be woken goes on when its time comes. -/
def proceed (i : Nat) (s : Scene ω) : Scene ω :=
  match s.acquisitions[i]? with
  | none => s
  | some a =>
    if a.result?.isSome || a.connection?.any s.isBusy then s
    else
      match a.sleep? s.pool s.ledger with
      | none => s
      | some l =>
        let (a, p, l) := a.step undisturbed s.pool l
        { s with pool := p, ledger := l }.put i a

/-- A holder begins a call. If its wrapper is live, the call has the connection for itself until it
is answered; otherwise it fails at once and nothing happens. Giving back is not such a call. -/
def ask (j : Nat) (call : Call) (s : Scene ω) : Scene ω :=
  match s.handles[j]? with
  | none => s
  | some h =>
    let connection := h.physical.connection
    if call = .close ∨ s.isBusy connection then s
    else if h.isValid s.pool then { s with calls := s.calls ++ [⟨h.wrapper, connection, call⟩] }
    else s

def answer (k : Nat) (s : Scene ω) : Scene ω :=
  match s.calls[k]? with
  | none => s
  | some c =>
    { s with
      calls := s.calls.eraseIdx k
      ledger := (s.ledger.callFor (some c.wrapper) c.connection c.call).2 }

def giveBack (j : Nat) (s : Scene ω) : Scene ω :=
  match s.handles[j]? with
  | none => s
  | some h =>
    if s.calls.any (·.wrapper == h.wrapper) then s
    else
      let (h, p, l) := h.release s.pool s.ledger
      { s with pool := p, ledger := l, handles := s.handles.set j h }

def goOn (k : Nat) (s : Scene ω) : Scene ω :=
  match s.chores[k]? with
  | none | some [] => s
  | some (chore :: rest) =>
    if chore.connection?.any s.isBusy then s
    else
      let (p, l) := s.pool.doChore chore s.ledger
      { s with pool := p, ledger := l, chores := s.chores.set k rest }

def isAtRest (s : Scene ω) : Bool := s.acquisitions.isEmpty && s.chores.all List.isEmpty

/-- What happens changes the scene. Nothing happens that cannot: once the pool is gone, only its
handles are left, and it goes when nobody uses it. -/
def step (s : Scene ω) : Event ω → Scene ω
  | .acquire username password =>
    if s.pool.dropped then s
    else
      let (now, l) := Clock.read s.ledger
      { s with
        ledger := l
        acquisitions := s.acquisitions ++ [.start username password now] }
  | .proceed i => s.proceed i
  | .ask j call => s.ask j call
  | .answer k => s.answer k
  | .giveBack j => s.giveBack j
  | .forceCloseAll => if s.pool.dropped then s else s.tearDown s.pool
  | .reconfigure config settings =>
    if s.pool.dropped then s
    else
      match s.pool.adopt config settings with
      | .error _ => s
      | .ok p => s.tearDown p
  | .interrupt =>
    if s.pool.dropped then s
    else { s with pool := s.pool.nextEpoch, chores := s.chores ++ [[.wakeAll]] }
  | .goOn k => s.goOn k
  | .drop =>
    if s.pool.dropped || !s.isAtRest then s else s.tearDown { s.pool with dropped := true }
  | .disturb change =>
    { s with ledger := { s.ledger with server := change s.ledger.server } }

def run (s : Scene ω) (events : List (Event ω)) : Scene ω := events.foldl step s

end Scene

structure Willing where
  time : Nat

instance : Server Willing where
  connect _ _ w := (.ok 0, w)
  perform _ call w :=
    match call with
    | .isClosed | .autoCommit => (.ok false, w)
    | .query _ _ => (.ok [], w)
    | .update _ _ => (.ok 0, w)
    | .close | .setAutoCommit _ | .commit | .rollback | .execute _ | .setIsolation _
    | .setNetworkTimeout _ => (.ok (), w)

instance : Clock Willing where
  read w := (⟨w.time⟩, ⟨w.time + 1⟩)
  waitUntil t w := ⟨max t.nanos w.time⟩

def Scene.narrow : Scene Willing :=
  start (.ofUrl "") { PoolConfig.standard with maxActive := 1, maxCheckoutTime := .zero } ⟨0⟩

def Scene.acquiring : List (Scene.Event Willing) :=
  .acquire none none :: List.replicate 6 (.proceed 0)

end SqlMapper
