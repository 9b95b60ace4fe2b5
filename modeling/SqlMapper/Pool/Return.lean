import SqlMapper.Pool.Acquisition

/-!
What holders do with their handles, and what closes or changes the whole pool.
-/

namespace SqlMapper

open Connection

variable {ω : Type} [Server ω]

/-- What is left to do after a section of the pool, while the pool is free. -/
inductive Chore where
  | wakeAll
  | close (slot : Slot)

namespace Pool

def doChore (p : Pool) (chore : Chore) (w : ω) : Pool × ω :=
  match chore with
  | .wakeAll => (p.notifyAll, w)
  | .close slot => (p, (closeQuietly slot.physical.connection w).2)

def doAll (p : Pool) (chores : List Chore) (w : ω) : Pool × ω :=
  chores.foldl (fun (p, w) chore => p.doChore chore w) (p, w)

def discard (slot : Slot) (p : Pool) (w : ω) : Pool × ω :=
  (p.invalidate slot.wrapper, (closeQuietly slot.physical.connection w).2)

/-- Whether a connection that came back is kept: it was rolled back, there is room for it, and it
belongs to the pool's own url and credentials. -/
def keeps (p : Pool) (slot : Slot) (rolledBack : Bool) : Bool :=
  rolledBack && decide (p.idle.length < p.config.maxIdle.toNat) &&
    slot.fingerprint == p.fingerprint

def settle (now : Instant) (slot : Slot) (p : Pool) (w : ω) : Pool × ω :=
  match (slot.answers p.config now).run w with
  | (false, w) =>
    let (p, w) := p.discard slot w
    (p.countBad, w)
  | (true, w) =>
    let p := p.countCheckout (now.since slot.checkoutAt)
    let (rolledBack, w) := slot.rollsBack.run w
    if p.keeps slot rolledBack then
      let (slot, p) := p.rewrap slot
      ({ p with idle := p.idle ++ [slot] }, w)
    else p.discard slot w

/-- Takes a wrapper back from its holder. One that is not in use any more was taken from its holder
or closed by force, and is only counted. -/
def giveBack (now : Instant) (wrapper : Nat) (p : Pool) (w : ω) : Pool × ω :=
  match p.active.find? (·.wrapper == wrapper) with
  | none => (p.countBad, w)
  | some slot =>
    let p := { p with active := p.active.eraseP (·.wrapper == wrapper) }
    let (p, w) :=
      if p.isLive wrapper then p.settle now slot w
      else
        let (p, w) := p.discard slot w
        (p.countBad, w)
    (p.notifyOne, w)

/-- Takes every connection out of the pool, also those in use. What is left to do is to wake
whoever waits and to close the connections. -/
def tearDown (p : Pool) : List Chore × Pool :=
  let (slots, p) := p.detachAll
  (.wakeAll :: slots.map .close, p)

def forceCloseAll (p : Pool) (w : ω) : Pool × ω :=
  let (chores, p) := p.tearDown
  p.doAll chores w

def nextEpoch (p : Pool) : Pool := { p with epoch := p.epoch + 1 }

def interrupt (p : Pool) : Pool := p.nextEpoch.notifyAll

def adopt (config : PoolConfig) (settings : ConnectionSettings) (p : Pool) : Except Error Pool :=
  config.validate.map fun _ =>
    { p with config := config, settings := settings, tallies := .zero }

def reconfigure (config : PoolConfig) (settings : ConnectionSettings) (p : Pool) (w : ω) :
    Except Error Unit × Pool × ω :=
  match p.adopt config settings with
  | .error e => (.error e, p, w)
  | .ok p =>
    let (p, w) := p.forceCloseAll w
    (.ok (), p, w)

def setProperties (properties : Entries String) (p : Pool) (w : ω) :
    Except Error Unit × Pool × ω :=
  match PoolConfig.setProperties properties (p.config, p.settings) with
  | .error e => (.error e, p, w)
  | .ok (config, settings) => p.reconfigure config settings w

def drop (p : Pool) (w : ω) : Pool × ω := { p with dropped := true }.forceCloseAll w

end Pool

namespace Handle

def isValid (h : Handle) (p : Pool) : Bool := p.isLive h.wrapper

def perform (h : Handle) (p : Pool) (call : Call) : Action ω call.Reply :=
  if h.isValid p then Connection.perform h.physical.connection call
  else throw .connectionClosed

def close (now : Instant) (h : Handle) (p : Pool) (w : ω) : Handle × Pool × ω :=
  if h.returned then (h, p, w)
  else
    let (p, w) := if p.dropped then (p, w) else p.giveBack now h.wrapper w
    ({ h with returned := true }, p, w)

def describe (h : Handle) (p : Pool) : String :=
  "PooledConnection \x7b id: " ++ toString h.wrapper ++ ", physical_id: " ++
    toString h.physical.number ++ ", valid: " ++ toString (h.isValid p) ++ ", returned: " ++
    toString h.returned ++ " \x7d"

end Handle
end SqlMapper
