import SqlMapper.Cache.Key
import SqlMapper.Execution.Handler
import SqlMapper.Pool.Run

/-!
Executors run mapped statements on a state. The direct executor takes a connection from a pool for
every statement and gives it back whatever has happened. A statement that waits for ever has no
result.
-/

namespace SqlMapper

/-- The result of something that may fail, and that may never end. -/
abbrev Run (σ α : Type) := σ → Option (Except Error α × σ)

structure Executor (σ : Type) where
  query : Statement → BoundSql → RowBounds → Run σ (List Row)
  update : Statement → Value → Run σ Nat
  key : Statement → BoundSql → RowBounds → CacheKey

namespace Executor

def select {σ : Type} (e : Executor σ) (s : Statement) (parameter : Value) (bounds : RowBounds) :
    Run σ (List Row) := fun st =>
  match s.source.bound parameter with
  | .error err => some (.error err, st)
  | .ok b => e.query s b bounds st

/-- The key of a query: the statement's id, the bounds, the SQL, every value, and the environment's
name if there is one, in this order. -/
def directKey (environment : Option String) (s : Statement) (b : BoundSql) (bounds : RowBounds) :
    CacheKey :=
  ⟨[.text s.id, .ofUInt64 bounds.offset, .ofUInt64 bounds.limit, .text b.sql] ++ b.values ++
    (environment.map Value.text).toList⟩

variable {ω : Type} [Server ω] [Clock ω]

def withConnection {α : Type} (step : Caller ω → Action ω α) : Run (Pool × ω) α :=
  fun (p, w) =>
  match p.connection undisturbed w with
  | none => none
  | some (.error e, p, w) => some (.error e, p, w)
  | some (.ok handle, p, w) =>
    let (result, w) := (step (handle.perform p)).run w
    let (_, p, w) := handle.release p w
    some (result, p, w)

def direct (handler : Handler ω) (environment : Option String) : Executor (Pool × ω) where
  query s b bounds := withConnection fun caller => handler.query caller s b bounds
  update s parameter := fun st =>
    match s.source.bound parameter with
    | .error err => some (.error err, st)
    | .ok b => withConnection (fun caller => handler.update caller s b) st
  key := directKey environment

end Executor
end SqlMapper
