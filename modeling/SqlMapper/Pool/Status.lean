import SqlMapper.Json.Basic
import SqlMapper.Pool.Config

/-!
What a pool counts, and its status as a document and as a report.
-/

namespace SqlMapper

structure Tallies where
  requests : Nat
  requestTime : Duration
  checkoutTime : Duration
  overdue : Nat
  overdueTime : Duration
  waits : Nat
  waitTime : Duration
  /-- Connections that turned out bad, and returns of connections that the pool had taken back. -/
  bad : Nat
  deriving DecidableEq, Repr

def Tallies.zero : Tallies := ⟨0, .zero, .zero, 0, .zero, 0, .zero, 0⟩

structure PoolStatus where
  active : Nat
  idle : Nat
  maxActive : UInt64
  maxIdle : UInt64
  tallies : Tallies
  deriving DecidableEq, Repr

namespace PoolStatus

def averageRequestTime (s : PoolStatus) : Duration :=
  s.tallies.requestTime.share s.tallies.requests

def averageCheckoutTime (s : PoolStatus) : Duration :=
  s.tallies.checkoutTime.share s.tallies.requests

def averageOverdueTime (s : PoolStatus) : Duration :=
  s.tallies.overdueTime.share s.tallies.overdue

def averageWaitTime (s : PoolStatus) : Duration :=
  s.tallies.waitTime.share s.tallies.waits

def toJson (s : PoolStatus) : Json :=
  .ofMembers [
    ("active_connections", .ofNat s.active),
    ("idle_connections", .ofNat s.idle),
    ("max_active", .ofNat s.maxActive.toNat),
    ("max_idle", .ofNat s.maxIdle.toNat),
    ("request_count", .ofNat s.tallies.requests),
    ("accumulated_request_time", .ofNat s.tallies.requestTime.millis),
    ("accumulated_checkout_time", .ofNat s.tallies.checkoutTime.millis),
    ("claimed_overdue_count", .ofNat s.tallies.overdue),
    ("accumulated_overdue_checkout_time", .ofNat s.tallies.overdueTime.millis),
    ("accumulated_wait_time", .ofNat s.tallies.waitTime.millis),
    ("had_to_wait_count", .ofNat s.tallies.waits),
    ("bad_connection_count", .ofNat s.tallies.bad)]

def toText (s : PoolStatus) : String := .ofList s.toJson.compact

def line (name text : String) : String :=
  " " ++ name ++ String.ofList (List.replicate (31 - name.length) ' ') ++ text

def report (s : PoolStatus) : String :=
  "\n".intercalate [
    "===CONFIGURATION==============================================",
    line "maxActive" (toString s.maxActive),
    line "maxIdle" (toString s.maxIdle),
    "---STATUS-----------------------------------------------------",
    line "activeConnections" (toString s.active),
    line "idleConnections" (toString s.idle),
    line "requestCount" (toString s.tallies.requests),
    line "averageRequestTime" s.averageRequestTime.toText,
    line "averageCheckoutTime" s.averageCheckoutTime.toText,
    line "claimedOverdue" (toString s.tallies.overdue),
    line "averageOverdueCheckoutTime" s.averageOverdueTime.toText,
    line "hadToWait" (toString s.tallies.waits),
    line "averageWaitTime" s.averageWaitTime.toText,
    line "badConnectionCount" (toString s.tallies.bad),
    "==============================================================="]

end PoolStatus
end SqlMapper
