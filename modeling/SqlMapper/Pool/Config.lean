import SqlMapper.Connection.Property

/-!
The limits of a connection pool, and the properties that set them.
-/

namespace SqlMapper

structure PoolConfig where
  maxActive : UInt64
  maxIdle : UInt64
  maxCheckoutTime : Duration
  timeToWait : Duration
  /-- How many bad connections one acquisition may meet beyond `maxIdle`. -/
  badTolerance : UInt64
  pings : Bool
  pingQuery : String
  /-- Only a connection that was not used for longer than this is tested by a query. -/
  pingNotUsedFor : Duration
  deriving DecidableEq, Repr

namespace PoolConfig

def standard : PoolConfig where
  maxActive := 10
  maxIdle := 5
  maxCheckoutTime := .ofMillis 20000
  timeToWait := .ofMillis 20000
  badTolerance := 3
  pings := false
  pingQuery := "NO PING QUERY SET"
  pingNotUsedFor := .zero

def validate (c : PoolConfig) : Except Error Unit :=
  if c.maxActive = 0 then .error (.config "max_active must be > 0")
  else if c.pings && Text.isBlankText c.pingQuery then
    .error (.config "ping_query must be set when ping is enabled")
  else .ok ()

/-- How many bad connections one acquisition may meet, in 64 bits. -/
def badLimit (c : PoolConfig) : Nat := (c.maxIdle + c.badTolerance).toNat

def setProperty? (key value : String) (c : PoolConfig) : Except Error (Option PoolConfig) :=
  match key with
  | "poolMaximumActiveConnections" =>
    (Property.read Text.uint64? key value).map fun n => some { c with maxActive := n }
  | "poolMaximumIdleConnections" =>
    (Property.read Text.uint64? key value).map fun n => some { c with maxIdle := n }
  | "poolMaximumCheckoutTime" =>
    (Property.read Property.millis? key value).map fun d => some { c with maxCheckoutTime := d }
  | "poolTimeToWait" =>
    (Property.read Property.millis? key value).map fun d => some { c with timeToWait := d }
  | "poolMaximumLocalBadConnectionTolerance" =>
    (Property.read Text.uint64? key value).map fun n => some { c with badTolerance := n }
  | "poolPingEnabled" =>
    (Property.read Property.bool? key value).map fun b => some { c with pings := b }
  | "poolPingQuery" => .ok (some { c with pingQuery := value })
  | "poolPingConnectionsNotUsedFor" =>
    (Property.read Property.millis? key value).map fun d => some { c with pingNotUsedFor := d }
  | _ => .ok none

def setAnyProperty (both : PoolConfig × ConnectionSettings) (property : String × String) :
    Except Error (PoolConfig × ConnectionSettings) := do
  match ← both.2.setProperty? property.1 property.2 with
  | some settings => return (both.1, settings)
  | none =>
    match ← both.1.setProperty? property.1 property.2 with
    | some config => return (config, both.2)
    | none => throw (Property.unknown property.1)

def setProperties (properties : Entries String) (both : PoolConfig × ConnectionSettings) :
    Except Error (PoolConfig × ConnectionSettings) :=
  properties.foldlM setAnyProperty both

end PoolConfig
end SqlMapper
