import SqlMapper.Cache.Key
import SqlMapper.Error
import SqlMapper.Time

/-!
Locks on cache keys. A locked key has a latch, on which everybody waits who finds the key locked.
Giving a key back takes the latch out of the table, and then opens it.
-/

namespace SqlMapper

structure Locks where
  /-- How long a locked key is waited for; without it, as long as it takes. -/
  timeout : Option Duration
  held : List (CacheKey × Nat)
  opened : List Nat
  next : Nat

inductive Claim where
  | taken
  | busy (latch : Nat)
  deriving DecidableEq

namespace Locks

def start (timeout : Option Duration) : Locks := ⟨timeout, [], [], 0⟩

def claim (key : CacheKey) (l : Locks) : Claim × Locks :=
  match l.held.lookup key with
  | some latch => (.busy latch, l)
  | none => (.taken, { l with held := (key, l.next) :: l.held, next := l.next + 1 })

def withdraw (key : CacheKey) (l : Locks) : Option Nat × Locks :=
  (l.held.lookup key, { l with held := l.held.filter (fun e => e.1 != key) })

def openLatch (latch : Nat) (l : Locks) : Locks :=
  { l with opened := latch :: l.opened }

def release (key : CacheKey) (l : Locks) : Except Error Unit × Locks :=
  match l.withdraw key with
  | (some latch, l) => (.ok (), l.openLatch latch)
  | (none, l) =>
    (.error (.illegalState ("Detected an attempt at releasing unacquired lock. " ++
      "This should never happen. (key " ++ key.toText ++ ")")), l)

/-- Whether waiting for a locked key ends by itself: a deadline beyond the clock's range never
comes. -/
def bounded (l : Locks) : Bool :=
  match l.timeout with
  | some d => ((Instant.after? ⟨0⟩ d).isSome)
  | none => false

def timedOut (key : CacheKey) (cache : String) (l : Locks) : Error :=
  .lockTimeout key.toText cache ((l.timeout.getD .zero).millis)

def size (l : Locks) : Nat := l.held.length

end Locks
end SqlMapper
