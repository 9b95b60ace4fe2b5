import SqlMapper.Connection.Call
import SqlMapper.Statement.Basic
import SqlMapper.Statement.RowBounds

/-!
Statement handlers: what runs a bound statement on a connection. A handler can be wrapped by
interceptors.
-/

namespace SqlMapper

abbrev Caller (ω : Type) := (call : Call) → Action ω call.Reply

structure Handler (ω : Type) where
  query : Caller ω → Statement → BoundSql → RowBounds → Action ω (List Row)
  update : Caller ω → Statement → BoundSql → Action ω Nat

namespace Handler

/-- The error of a statement that failed. An error that names its statement, and that of a
handle that is no longer valid, stay as they are. -/
def failure (s : Statement) : Error → Error
  | .execution id detail => .execution id detail
  | .connectionClosed => .connectionClosed
  | e => .execution s.id e.message

def callFor {ω : Type} (caller : Caller ω) (s : Statement) (call : Call) : Action ω call.Reply :=
  ExceptT.mk fun w =>
    match (caller call).run w with
    | (.ok reply, w) => (.ok reply, w)
    | (.error e, w) => (.error (failure s e), w)

def plain {ω : Type} : Handler ω where
  query caller s b bounds := do
    let rows ← callFor caller s (.query b.sql b.values)
    return bounds.apply rows
  update caller s b := callFor caller s (.update b.sql b.values)

/-- A handler around another one. What comes before is told whether a query or an update is asked
for, and may refuse it by failing; what comes after is told how many rows there were, or the
error. -/
def around {ω : Type} (before : String → Statement → BoundSql → Action ω Unit)
    (after : Except Error Nat → ω → ω) (inner : Handler ω) : Handler ω where
  query caller s b bounds := do
    before "query" s b
    ExceptT.mk fun w =>
      let (r, w) := (inner.query caller s b bounds).run w
      (r, after (r.map List.length) w)
  update caller s b := do
    before "update" s b
    ExceptT.mk fun w =>
      let (r, w) := (inner.update caller s b).run w
      (r, after r w)

end Handler
end SqlMapper
