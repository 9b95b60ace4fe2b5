import SqlMapper.Pool.Status

/-!
The state of a connection pool. A physical connection is idle, in use (`active`, the oldest
check-out first), or held by an acquisition that checks it (`pending`). Epochs, generations and the
numbers of wrappers, connections and tickets are natural numbers, counted up by one, and never come
round.
-/

namespace SqlMapper

structure Physical where
  number : Nat
  connection : Nat
  deriving DecidableEq, Repr

structure Slot where
  wrapper : Nat
  physical : Physical
  createdAt : Instant
  lastUsedAt : Instant
  checkoutAt : Instant
  /-- The fingerprint of the url and the credentials with which it was last asked for. -/
  fingerprint : String
  deriving DecidableEq, Repr

structure Pool where
  config : PoolConfig
  settings : ConnectionSettings
  idle : List Slot
  active : List Slot
  pending : Nat
  tallies : Tallies
  epoch : Nat
  generation : Nat
  wrappers : Nat
  physicals : Nat
  /-- The wrappers that may use their connections. -/
  live : List Nat
  /-- The tickets of the acquisitions that wait to be woken, the longest waiting first. -/
  parked : List Nat
  tickets : Nat
  dropped : Bool

namespace Pool

def start (settings : ConnectionSettings) (config : PoolConfig) : Pool where
  config := config
  settings := settings
  idle := []
  active := []
  pending := 0
  tallies := .zero
  epoch := 0
  generation := 0
  wrappers := 0
  physicals := 0
  live := []
  parked := []
  tickets := 0
  dropped := false

def create (settings : ConnectionSettings) (config : PoolConfig) : Except Error Pool :=
  config.validate.map fun _ => start settings config

def status (p : Pool) : PoolStatus :=
  ⟨p.active.length, p.idle.length, p.config.maxActive, p.config.maxIdle, p.tallies⟩

def fingerprint (p : Pool) : String :=
  ConnectionSettings.fingerprint p.settings.url p.settings.username p.settings.password

def isLive (p : Pool) (wrapper : Nat) : Bool := p.live.contains wrapper

def invalidate (wrapper : Nat) (p : Pool) : Pool :=
  { p with live := p.live.filter (· != wrapper) }

def newWrapper (p : Pool) : Nat × Pool :=
  let wrapper := p.wrappers + 1
  (wrapper, { p with wrappers := wrapper, live := wrapper :: p.live })

def newSlot (now : Instant) (connection : Nat) (p : Pool) : Slot × Pool :=
  let number := p.physicals + 1
  let (wrapper, p) := { p with physicals := number }.newWrapper
  (⟨wrapper, ⟨number, connection⟩, now, now, now, ""⟩, p)

def rewrap (slot : Slot) (p : Pool) : Slot × Pool :=
  let (wrapper, p) := (p.invalidate slot.wrapper).newWrapper
  ({ slot with wrapper := wrapper }, p)

def notifyOne (p : Pool) : Pool := { p with parked := p.parked.drop 1 }

def notifyAll (p : Pool) : Pool := { p with parked := [] }

def countBad (p : Pool) : Pool :=
  { p with tallies := { p.tallies with bad := p.tallies.bad + 1 } }

def countCheckout (d : Duration) (p : Pool) : Pool :=
  { p with tallies := { p.tallies with checkoutTime := p.tallies.checkoutTime.add d } }

/-- Takes every connection out of the pool, those in use first and the latest of each kind first. No
wrapper of theirs stays live, and what is being checked meanwhile will be out of date. -/
def detachAll (p : Pool) : List Slot × Pool :=
  let slots := p.active.reverse ++ p.idle.reverse
  let p := slots.foldl (fun p slot => p.invalidate slot.wrapper) p
  (slots, { p with generation := p.generation + 1, active := [], idle := [] })

end Pool
end SqlMapper
