import SqlMapper.Json.Reader
import SqlMapper.Pool.Config

/-!
Pool limits as JSON documents. In an object a limit that is missing has its standard value and none
may be given twice; in an array the limits come in a fixed order.
-/

namespace SqlMapper.PoolConfig

def names : List String :=
  ["max_active", "max_idle", "max_checkout_time", "time_to_wait", "bad_connection_tolerance",
    "ping_enabled", "ping_query", "ping_not_used_for"]

def toJson (c : PoolConfig) : Json :=
  .ofMembers [
    ("max_active", .ofNat c.maxActive.toNat),
    ("max_idle", .ofNat c.maxIdle.toNat),
    ("max_checkout_time", .ofNat c.maxCheckoutTime.millis),
    ("time_to_wait", .ofNat c.timeToWait.millis),
    ("bad_connection_tolerance", .ofNat c.badTolerance.toNat),
    ("ping_enabled", .bool c.pings),
    ("ping_query", .ofString c.pingQuery),
    ("ping_not_used_for", .ofNat c.pingNotUsedFor.millis)]

def toText (c : PoolConfig) : String := .ofList (c.toJson.pretty 0)

def count? : Json → Option UInt64
  | .number spelling =>
    (Text.numeral? spelling).bind fun n => if n < Nat.pow 2 64 then some (.ofNat n) else none
  | _ => none

def time? (j : Json) : Option Duration :=
  (count? j).map fun ms => .ofMillis ms.toNat

def truth? : Json → Option Bool
  | .bool b => some b
  | _ => none

def text? : Json → Option String
  | .text s => s
  | _ => none

def setLimit (c : PoolConfig) (limit : String × Json) : Option PoolConfig :=
  let j := limit.2
  match limit.1 with
  | "max_active" => (count? j).map fun n => { c with maxActive := n }
  | "max_idle" => (count? j).map fun n => { c with maxIdle := n }
  | "max_checkout_time" => (time? j).map fun d => { c with maxCheckoutTime := d }
  | "time_to_wait" => (time? j).map fun d => { c with timeToWait := d }
  | "bad_connection_tolerance" => (count? j).map fun n => { c with badTolerance := n }
  | "ping_enabled" => (truth? j).map fun b => { c with pings := b }
  | "ping_query" => (text? j).map fun s => { c with pingQuery := s }
  | "ping_not_used_for" => (time? j).map fun d => { c with pingNotUsedFor := d }
  | _ => some c

def namedOnce (members : List (String × Json)) : Bool :=
  decide ((members.map (·.1)).filter (names.contains ·)).Nodup

def ofJson? : Json → Option PoolConfig
  | .array items =>
    if items.length ≤ names.length then (names.zip items).foldlM setLimit standard else none
  | .object members => do
    let members ← members.mapM fun m => m.1.map fun name => (name, m.2)
    if namedOnce members then members.foldlM setLimit standard else none
  | _ => none

def ofText (s : String) : Except Error PoolConfig :=
  match (Json.read? s).bind ofJson? with
  | none => .error (.serialization "not the limits of a pool")
  | some c => c.validate.map fun _ => c

end SqlMapper.PoolConfig
