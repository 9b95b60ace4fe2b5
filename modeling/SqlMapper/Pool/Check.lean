import SqlMapper.Pool.Basic

/-!
Checks of pooled connections: whether a connection is open, whether it answers a query after it was
not used for a while, and whether it can be rolled back.
-/

namespace SqlMapper

open Connection

variable {ω : Type} [Server ω]

def succeeds {α : Type} (step : Action ω α) : StateM ω Bool := do
  return (← step.run).toBool

namespace Slot

inductive Test where
  | live
  | answers
  | rollsBack
  deriving DecidableEq, Repr

/-- The tests of a connection, in their order. One that was taken from its holder is rolled back
before everything else, any other one at the end. -/
def tests (reclaimed : Bool) : List Test :=
  if reclaimed then [.rollsBack, .live, .answers] else [.live, .answers, .rollsBack]

def isOpen (slot : Slot) : StateM ω Bool := do
  match ← (perform slot.physical.connection .isClosed).run with
  | .ok closed => return !closed
  | .error _ => return false

/-- Runs the query of a test, and undoes it unless the connection commits by itself. -/
def testQuery (query : String) (slot : Slot) : Action ω Unit := do
  perform slot.physical.connection (.execute query)
  rollBackIfNeeded slot.physical.connection

def needsTest (config : PoolConfig) (now : Instant) (slot : Slot) : Bool :=
  config.pings && decide (config.pingNotUsedFor.nanos < (now.since slot.lastUsedAt).nanos)

/-- Whether a connection is open and, if it is to be tested, passes the test. One that fails the
test is closed. -/
def answers (config : PoolConfig) (now : Instant) (slot : Slot) : StateM ω Bool := do
  if !(← slot.isOpen) then return false
  if !slot.needsTest config now then return true
  if ← succeeds (slot.testQuery config.pingQuery) then return true
  let _ ← (perform slot.physical.connection .close).run
  return false

def rollsBack (slot : Slot) : StateM ω Bool :=
  succeeds (rollBackIfNeeded slot.physical.connection)

def passes (config : PoolConfig) (now : Instant) (isLive : Bool) (test : Test) (slot : Slot) :
    StateM ω Bool :=
  match test with
  | .live => return isLive
  | .answers => slot.answers config now
  | .rollsBack => slot.rollsBack

end Slot
end SqlMapper
