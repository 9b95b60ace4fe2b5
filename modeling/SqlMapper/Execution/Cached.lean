import SqlMapper.Cache.Layers
import SqlMapper.Execution.Executor

/-!
Executors that look into a cache before they run a query. A key that was not found is either filled
or given back, and a statement that changes something clears its cache afterwards, also when it
failed.
-/

namespace SqlMapper

abbrev Caches (β : Type) := Entries (Cache β)

namespace Executor

variable {β σ : Type} [Store β]

def flush (s : Statement) (cs : Caches β) : Caches β :=
  match s.cache with
  | some name =>
    match s.flushesCache, cs.lookup name with
    | true, some c => Entries.insert name c.clear cs
    | _, _ => cs
  | none => cs

def cacheOf? (s : Statement) (cs : Caches β) : Option (String × Cache β) :=
  match s.cache with
  | some name => if s.usesCache then (cs.lookup name).map fun c => (name, c) else none
  | none => none

def fill (key : CacheKey) (rows : List Row) (name : String) (cs : Caches β) :
    Except Error Unit × Caches β :=
  match cs.lookup name with
  | none => (.ok (), cs)
  | some c =>
    let (r, c) := c.put key (.ofRows rows)
    (r, Entries.insert name c cs)

/-- Gives the key of a query back that failed. What fails on the way is not told. -/
def giveUp (key : CacheKey) (name : String) (cs : Caches β) : Caches β :=
  match cs.lookup name with
  | none => cs
  | some c => Entries.insert name (c.release key).2 cs

def cachedQuery (inner : Executor σ) (s : Statement) (b : BoundSql) (bounds : RowBounds) :
    Run (Caches β × σ) (List Row) := fun (cs, st) =>
  let cs := flush s cs
  match cacheOf? s cs with
  | none => (inner.query s b bounds st).map fun (r, st) => (r, cs, st)
  | some (name, c) =>
    let key := inner.key s b bounds
    match c.get key with
    | none => none
    | some (found, c) =>
      let cs := Entries.insert name c cs
      match found with
      | .error e => some (.error e, cs, st)
      | .ok (some v) => some (.ok v.toRows, cs, st)
      | .ok none =>
        match inner.query s b bounds st with
        | none => none
        | some (.error e, st) => some (.error e, giveUp key name cs, st)
        | some (.ok rows, st) =>
          match fill key rows name cs with
          | (.error e, cs) => some (.error e, cs, st)
          | (.ok (), cs) => some (.ok rows, cs, st)

def cached (inner : Executor σ) : Executor (Caches β × σ) where
  query := cachedQuery inner
  update s parameter := fun (cs, st) =>
    (inner.update s parameter st).map fun (r, st) => (r, flush s cs, st)
  key := inner.key

end Executor
end SqlMapper
