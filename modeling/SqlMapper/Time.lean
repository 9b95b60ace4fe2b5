import SqlMapper.Text.Numeral

/-!
Spans of time and points in time, both in nanoseconds. A span has at most 64 bits of seconds; a
point in time has at most 63, so a deadline that is too far away does not exist.
-/

namespace SqlMapper

structure Duration where
  nanos : Nat
  deriving DecidableEq, Repr, Inhabited

namespace Duration

def zero : Duration := ⟨0⟩

def max : Duration := ⟨(Nat.pow 2 64 - 1) * Nat.pow 10 9 + (Nat.pow 10 9 - 1)⟩

def ofMillis (ms : Nat) : Duration := ⟨ms * Nat.pow 10 6⟩

def millis (d : Duration) : Nat := d.nanos / Nat.pow 10 6 % Nat.pow 2 64

def add (a b : Duration) : Duration := ⟨a.nanos + b.nanos⟩

/-- A span divided into equal parts, in whole nanoseconds of 64 bits; without parts it is
no time. -/
def share (d : Duration) (parts : Nat) : Duration :=
  if parts = 0 then zero else ⟨d.nanos / parts % Nat.pow 2 64⟩

def decimalText (whole rest places : Nat) : String :=
  let digits := Nat.toDigits 10 (Nat.pow 10 places + rest) |>.drop 1
  let kept := (digits.reverse.dropWhile (· == '0')).reverse
  if kept = [] then toString whole
  else toString whole ++ "." ++ String.ofList kept

def toText (d : Duration) : String :=
  let n := d.nanos
  if Nat.pow 10 9 ≤ n then decimalText (n / Nat.pow 10 9) (n % Nat.pow 10 9) 9 ++ "s"
  else if Nat.pow 10 6 ≤ n then decimalText (n / Nat.pow 10 6) (n % Nat.pow 10 6) 6 ++ "ms"
  else if Nat.pow 10 3 ≤ n then decimalText (n / Nat.pow 10 3) (n % Nat.pow 10 3) 3 ++ "µs"
  else toString n ++ "ns"

end Duration

structure Instant where
  nanos : Nat
  deriving DecidableEq, Repr, Inhabited

namespace Instant

/-- The span from an earlier point to a later one; no time if they are the other way round. -/
def since (later earlier : Instant) : Duration := ⟨later.nanos - earlier.nanos⟩

def after? (start : Instant) (d : Duration) : Option Instant :=
  if start.nanos + d.nanos < Nat.pow 2 63 * Nat.pow 10 9 then some ⟨start.nanos + d.nanos⟩ else none

def earlier (a b : Instant) : Instant := ⟨min a.nanos b.nanos⟩

end Instant

class Clock (ω : Type) where
  read : ω → Instant × ω
  waitUntil : Instant → ω → ω

end SqlMapper
