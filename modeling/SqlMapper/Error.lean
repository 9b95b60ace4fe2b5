/-!
The ways an operation can fail, and the message of each. What a driver or a layer of its own wants
to say is carried as text.
-/

namespace SqlMapper

inductive Error where
  | poolTimeout (waitedMs : Nat)
  | acquisition (detail : String)
  | interrupted
  | connectionClosed
  | connection (detail : String)
  | lockTimeout (key cache : String) (timeoutMs : Nat)
  | illegalState (detail : String)
  | expression (source detail : String)
  | binding (detail : String)
  | config (detail : String)
  | execution (statement detail : String)
  | serialization (detail : String)
  deriving DecidableEq, Repr

def Error.message : Error → String
  | .poolTimeout ms => s!"timed out after {ms}ms waiting for a pooled connection"
  | .acquisition detail => s!"could not get a good connection to the database: {detail}"
  | .interrupted => "interrupted while waiting for a pooled connection"
  | .connectionClosed => "connection is closed"
  | .connection detail => s!"connection error: {detail}"
  | .lockTimeout key cache ms =>
    s!"couldn't get a lock in {ms}ms for the key {key} at the cache {cache}"
  | .illegalState detail => s!"illegal state: {detail}"
  | .expression source detail => s!"expression error in '{source}': {detail}"
  | .binding detail => s!"binding error: {detail}"
  | .config detail => s!"configuration error: {detail}"
  | .execution statement detail => s!"error executing statement '{statement}': {detail}"
  | .serialization detail => s!"serialization error: {detail}"

end SqlMapper
