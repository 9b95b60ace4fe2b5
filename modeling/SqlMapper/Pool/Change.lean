import SqlMapper.Pool.Return

/-!
Changes of one limit or one setting of a pool. Each of them is a reconfiguration in which everything
else stays as it is.
-/

namespace SqlMapper

inductive PoolChange where
  | config (config : PoolConfig)
  | maxActive (n : UInt64)
  | maxIdle (n : UInt64)
  | maxCheckoutTime (d : Duration)
  | timeToWait (d : Duration)
  | badTolerance (n : UInt64)
  | pings (on : Bool)
  | pingQuery (query : String)
  | pingNotUsedFor (d : Duration)
  | url (url : String)
  | username (name : Option String)
  | password (password : Option String)
  | properties (properties : Entries String)
  | autoCommit (on : Option Bool)
  | isolation (level : Option Isolation)
  | networkTimeout (d : Option Duration)

def PoolChange.apply (both : PoolConfig × ConnectionSettings) :
    PoolChange → PoolConfig × ConnectionSettings
  | .config c => (c, both.2)
  | .maxActive n => ({ both.1 with maxActive := n }, both.2)
  | .maxIdle n => ({ both.1 with maxIdle := n }, both.2)
  | .maxCheckoutTime d => ({ both.1 with maxCheckoutTime := d }, both.2)
  | .timeToWait d => ({ both.1 with timeToWait := d }, both.2)
  | .badTolerance n => ({ both.1 with badTolerance := n }, both.2)
  | .pings on => ({ both.1 with pings := on }, both.2)
  | .pingQuery query => ({ both.1 with pingQuery := query }, both.2)
  | .pingNotUsedFor d => ({ both.1 with pingNotUsedFor := d }, both.2)
  | .url u => (both.1, { both.2 with url := u })
  | .username name => (both.1, { both.2 with username := name })
  | .password secret => (both.1, { both.2 with password := secret })
  | .properties ps => (both.1, { both.2 with properties := ps })
  | .autoCommit on => (both.1, { both.2 with autoCommit := on })
  | .isolation level => (both.1, { both.2 with isolation := level })
  | .networkTimeout d => (both.1, { both.2 with networkTimeout := d })

def Pool.change {ω : Type} [Server ω] (change : PoolChange) (p : Pool) (w : ω) :
    Except Error Unit × Pool × ω :=
  let (config, settings) := change.apply (p.config, p.settings)
  p.reconfigure config settings w

end SqlMapper
