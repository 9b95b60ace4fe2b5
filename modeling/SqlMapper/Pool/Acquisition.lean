import SqlMapper.Pool.Check

/-!
Acquisitions: how a caller gets a connection from a pool. In some phases an acquisition works on the
pool, one section at a time and undisturbed; in the others it works on one physical connection, or
waits, while the pool is free for everybody.
-/

namespace SqlMapper

structure Handle where
  wrapper : Nat
  physical : Physical
  createdAt : Instant
  lastUsedAt : Instant
  checkoutAt : Instant
  fingerprint : String
  returned : Bool
  deriving DecidableEq, Repr

def Slot.handle (slot : Slot) : Handle :=
  ⟨slot.wrapper, slot.physical, slot.createdAt, slot.lastUsedAt, slot.checkoutAt,
    slot.fingerprint, false⟩

inductive Phase where
  | starting
  /-- It waits under a ticket, until a point in time if there is one. -/
  | parked (ticket : Nat) (wakeAt : Option Instant)
  /-- It has a candidate to check under the limits, and at the generation, at which it was chosen;
  some tests are left. -/
  | checking (slot : Slot) (config : PoolConfig) (generation : Nat) (left : List Slot.Test)
  | checked (slot : Slot) (generation : Nat) (good : Bool)
  /-- It has a connection to close, because it is bad or because it is out of date. -/
  | discarding (slot : Slot) (bad : Bool)
  | discarded (bad : Bool)
  | done (result : Except Error Handle)

structure Acquisition where
  username : Option String
  password : Option String
  startedAt : Instant
  epoch : Nat
  bad : Nat
  /-- When waiting ends, fixed at the first wait; a deadline that the clock cannot show never
  comes. -/
  deadline : Option (Option Instant)
  /-- The end of the last wait, or the start of the first. -/
  waitingSince : Option Instant
  /-- Whether the deadline has passed, so that it will not wait again. -/
  lastPass : Bool
  phase : Phase

namespace Acquisition

def start (username password : Option String) (now : Instant) : Acquisition :=
  ⟨username, password, now, 0, 0, none, none, false, .starting⟩

def goTo (phase : Phase) (a : Acquisition) : Acquisition := { a with phase := phase }

def fail (e : Error) (a : Acquisition) : Acquisition := a.goTo (.done (.error e))

end Acquisition

namespace Pool

def hasRoom (p : Pool) : Bool :=
  decide (p.active.length + p.pending < p.config.maxActive.toNat)

def isOverdue (p : Pool) (now : Instant) (slot : Slot) : Bool :=
  decide (p.config.maxCheckoutTime.nanos < (now.since slot.checkoutAt).nanos)

def reclaim (now : Instant) (slot : Slot) (rest : List Slot) (p : Pool) : Slot × Pool :=
  let checkout := now.since slot.checkoutAt
  let tallies :=
    { p.tallies with
      overdue := p.tallies.overdue + 1
      overdueTime := p.tallies.overdueTime.add checkout
      checkoutTime := p.tallies.checkoutTime.add checkout }
  { p with active := rest, tallies := tallies }.rewrap slot

def candidate {ω : Type} [Server ω] (now : Instant) (username password : Option String)
    (p : Pool) (w : ω) : Except Error (Option (Slot × Bool)) × Pool × ω :=
  match p.idle with
  | slot :: rest => (.ok (some (slot, false)), { p with idle := rest }, w)
  | [] =>
    if p.hasRoom then
      match (p.settings.connect username password).run w with
      | (.error e, w) => (.error e, p, w)
      | (.ok connection, w) =>
        let (slot, p) := p.newSlot now connection
        (.ok (some (slot, false)), p, w)
    else
      match p.active with
      | oldest :: rest =>
        if p.isOverdue now oldest then
          let (slot, p) := p.reclaim now oldest rest
          (.ok (some (slot, true)), p, w)
        else (.ok none, p, w)
      | [] => (.ok none, p, w)

def overdueAt (p : Pool) : Option Instant := do
  let oldest ← p.active.head?
  (← oldest.checkoutAt.after? p.config.maxCheckoutTime).after? (.ofMillis 1)

/-- When somebody who waits has to look again: at the deadline, or when a connection can be taken
from its holder. -/
def wakeTime (p : Pool) (deadline : Option Instant) : Option Instant :=
  match p.overdueAt, deadline with
  | some t, some d => some (t.earlier d)
  | some t, none => some t
  | none, deadline => deadline

/-- Lets an acquisition wait. It is counted when it waits for the first time. -/
def park (now : Instant) (a : Acquisition) (p : Pool) : Acquisition × Pool :=
  let deadline := a.deadline.getD (now.after? p.config.timeToWait)
  let first := if a.deadline.isNone then 1 else 0
  let wakeAt := p.wakeTime deadline
  let ticket := p.tickets + 1
  ({ a with
      deadline := some deadline
      waitingSince := some (a.waitingSince.getD now)
      phase := .parked ticket wakeAt },
    { p with
      parked := p.parked ++ [ticket]
      tickets := ticket
      tallies := { p.tallies with waits := p.tallies.waits + first } })

def examine {ω : Type} [Server ω] (now : Instant) (a : Acquisition) (p : Pool) (w : ω) :
    Acquisition × Pool × ω :=
  match p.candidate now a.username a.password w with
  | (.error e, p, w) => (a.fail e, p, w)
  | (.ok (some (slot, reclaimed)), p, w) =>
    (a.goTo (.checking slot p.config p.generation (Slot.tests reclaimed)),
      { p with pending := p.pending + 1 }, w)
  | (.ok none, p, w) =>
    if a.lastPass then (a.fail (.poolTimeout (now.since a.startedAt).millis), p, w)
    else
      let (a, p) := p.park now a
      (a, p, w)

def enter {ω : Type} [Server ω] (now : Instant) (a : Acquisition) (p : Pool) (w : ω) :
    Acquisition × Pool × ω :=
  p.examine now { a with epoch := p.epoch } w

/-- Another look at the pool after a wait, which was interrupted, or whose time may be up. -/
def wake {ω : Type} [Server ω] (now : Instant) (ticket : Nat) (a : Acquisition) (p : Pool)
    (w : ω) : Acquisition × Pool × ω :=
  let waited := now.since (a.waitingSince.getD now)
  let p := { p with
    parked := p.parked.filter (· != ticket)
    tallies := { p.tallies with waitTime := p.tallies.waitTime.add waited } }
  let a := { a with waitingSince := some now }
  if p.epoch ≠ a.epoch then (a.fail .interrupted, p, w)
  else
    let expired :=
      match a.deadline with
      | some (some deadline) => decide (deadline.nanos ≤ now.nanos)
      | _ => false
    p.examine now { a with lastPass := a.lastPass || expired } w

def register (now : Instant) (slot : Slot) (a : Acquisition) (p : Pool) : Acquisition × Pool :=
  let fingerprint := ConnectionSettings.fingerprint p.settings.url a.username a.password
  let slot := { slot with fingerprint := fingerprint, checkoutAt := now, lastUsedAt := now }
  let tallies :=
    { p.tallies with
      requests := p.tallies.requests + 1
      requestTime := p.tallies.requestTime.add (now.since a.startedAt) }
  (a.goTo (.done (.ok slot.handle)), { p with active := p.active ++ [slot], tallies := tallies })

def conclude (now : Instant) (slot : Slot) (generation : Nat) (good : Bool) (a : Acquisition)
    (p : Pool) : Acquisition × Pool :=
  let p := { p with pending := p.pending - 1 }
  if p.generation ≠ generation then (a.goTo (.discarding slot false), p.invalidate slot.wrapper)
  else if good then p.register now slot a
  else (a.goTo (.discarding slot true), p.invalidate slot.wrapper)

def tooManyBad (bad limit : Nat) : Error :=
  .acquisition
    (toString bad ++ " bad connections in one acquisition (limit " ++ toString limit ++ ")")

/-- Goes on after a connection was closed. Somebody else may open another one in its place. -/
def resume {ω : Type} [Server ω] (now : Instant) (bad : Bool) (a : Acquisition) (p : Pool)
    (w : ω) : Acquisition × Pool × ω :=
  let p := p.notifyOne
  if bad then
    let a := { a with bad := a.bad + 1 }
    let p := p.countBad
    if p.config.badLimit < a.bad then (a.fail (tooManyBad a.bad p.config.badLimit), p, w)
    else p.examine now a w
  else p.examine now a w

end Pool
end SqlMapper
