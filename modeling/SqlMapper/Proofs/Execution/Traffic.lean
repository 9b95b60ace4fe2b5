import SqlMapper.Execution.Cached

/-!
Clients of one executor that looks into caches, side by side: between two steps of one client the
others may do anything. Whoever finds a key locked waits until the key is free or the time is up.
-/

namespace SqlMapper

open Executor

inductive QueryPhase where
  | asking
  /-- It has cleared what it has to clear. -/
  | looking
  /-- It has found nothing in a cache, or has not looked into any. -/
  | loading (cache : Option String)
  | filling (cache : String) (rows : List Row)
  /-- It could not read, and has its key to give back. -/
  | givingUp (cache : String) (e : Error)
  | answered (r : Except Error (List Row))

inductive UpdatePhase where
  | changing
  /-- It has changed what it changes, and has not cleared its cache yet. -/
  | clearing (r : Except Error Nat)
  | changed (r : Except Error Nat)

inductive Client where
  | query (s : Statement) (b : BoundSql) (bounds : RowBounds) (phase : QueryPhase)
  | update (s : Statement) (parameter : Value) (phase : UpdatePhase)

section

variable {σ : Type} (inner : Executor σ)

def QueryPhase.step (s : Statement) (b : BoundSql) (bounds : RowBounds) (phase : QueryPhase)
    (w : Caches MapStore × σ) : Option (QueryPhase × Caches MapStore × σ) :=
  match phase with
  | .asking => some (.looking, flush s w.1, w.2)
  | .looking =>
    match cacheOf? s w.1 with
    | none => some (.loading none, w)
    | some (name, c) =>
      (c.get (inner.key s b bounds)).map fun (found, c) =>
        let phase := match found with
          | .error e => .answered (.error e)
          | .ok (some v) => .answered (.ok v.toRows)
          | .ok none => .loading (some name)
        (phase, Entries.insert name c w.1, w.2)
  | .loading cache =>
    (inner.query s b bounds w.2).map fun (r, st) =>
      let phase := match cache, r with
        | none, r => .answered r
        | some name, .error e => .givingUp name e
        | some name, .ok rows => .filling name rows
      (phase, w.1, st)
  | .filling name rows =>
    let (r, cs) := fill (inner.key s b bounds) rows name w.1
    some (.answered (r.map fun _ => rows), cs, w.2)
  | .givingUp name e =>
    some (.answered (.error e), giveUp (inner.key s b bounds) name w.1, w.2)
  | .answered _ => none

def UpdatePhase.step (s : Statement) (parameter : Value) (phase : UpdatePhase)
    (w : Caches MapStore × σ) : Option (UpdatePhase × Caches MapStore × σ) :=
  match phase with
  | .changing => (inner.update s parameter w.2).map fun (r, st) => (.clearing r, w.1, st)
  | .clearing r => some (.changed r, flush s w.1, w.2)
  | .changed _ => none

namespace Client

def step (c : Client) (w : Caches MapStore × σ) : Option (Client × Caches MapStore × σ) :=
  match c with
  | .query s b bounds phase =>
    (phase.step inner s b bounds w).map fun (phase, w) => (.query s b bounds phase, w)
  | .update s parameter phase =>
    (phase.step inner s parameter w).map fun (phase, w) => (.update s parameter phase, w)

def isOver : Client → Bool
  | .query _ _ _ (.answered _) | .update _ _ (.changed _) => true
  | _ => false

def finish : Nat → Client → Caches MapStore × σ → Option (Client × Caches MapStore × σ)
  | 0, c, w => some (c, w)
  | steps + 1, c, w =>
    if c.isOver then some (c, w)
    else
      match c.step inner w with
      | none => none
      | some (c, w) => finish steps c w

variable {inner}

theorem finish_succ {c : Client} (h : c.isOver = false) (steps : Nat) (w : Caches MapStore × σ) :
    c.finish inner (steps + 1) w = (c.step inner w).bind fun (c, w) => c.finish inner steps w := by
  rw [finish, h, if_neg (by simp)]
  cases c.step inner w with
  | none => rfl
  | some x => rfl

section

variable (s : Statement) (b : BoundSql) (bounds : RowBounds)

/-- A query that looks into no cache is over when it has read. -/
theorem finish_loading_none (w : Caches MapStore × σ) :
    finish inner 2 (.query s b bounds (.loading none)) w =
      (inner.query s b bounds w.2).map fun (r, st) =>
        (.query s b bounds (.answered r), w.1, st) := by
  rw [finish_succ rfl, step, QueryPhase.step]
  cases inner.query s b bounds w.2 with
  | none => rfl
  | some x => rfl

/-- A query that found nothing reads, and then fills its key or gives it back. -/
theorem finish_loading_some (name : String) (w : Caches MapStore × σ) :
    finish inner 2 (.query s b bounds (.loading (some name))) w =
      (inner.query s b bounds w.2).map fun (r, st) =>
        match r with
        | .error e =>
          (.query s b bounds (.answered (.error e)), giveUp (inner.key s b bounds) name w.1, st)
        | .ok rows =>
          let (filled, cs) := fill (inner.key s b bounds) rows name w.1
          (.query s b bounds (.answered (filled.map fun _ => rows)), cs, st) := by
  rw [finish_succ rfl, step, QueryPhase.step]
  cases inner.query s b bounds w.2 with
  | none => rfl
  | some x =>
    obtain ⟨e | rows, st⟩ := x
    · exact finish_succ rfl 0 _
    · exact finish_succ rfl 0 _

/-- A query that nobody disturbs does in steps what it does at one go. -/
theorem finish_query (w : Caches MapStore × σ) :
    finish inner 4 (.query s b bounds .asking) w =
      (inner.cached.query s b bounds w).map fun (r, w) => (.query s b bounds (.answered r), w) := by
  obtain ⟨cs, st⟩ := w
  have hasked : finish inner 4 (.query s b bounds .asking) (cs, st) =
      finish inner 3 (.query s b bounds .looking) (flush s cs, st) := rfl
  rw [hasked, finish_succ rfl, step, QueryPhase.step]
  dsimp only [cached, cachedQuery]
  cases cacheOf? s (flush s cs) with
  | none =>
    dsimp only [Option.map_some, Option.bind_some]
    rw [finish_loading_none, Option.map_map]
    rfl
  | some x =>
    obtain ⟨name, c⟩ := x
    dsimp only
    cases c.get (inner.key s b bounds) with
    | none => rfl
    | some y =>
      obtain ⟨e | v, c'⟩ := y
      · rfl
      cases v with
      -- What is found is the answer, whatever steps are left.
      | some v => rfl
      | none =>
        dsimp only [Option.map_some, Option.bind_some]
        rw [finish_loading_some]
        rcases inner.query s b bounds st with _ | ⟨e | rows, st'⟩
        · rfl
        · rfl
        · dsimp only [Option.map_some]
          rcases fill (inner.key s b bounds) rows name (Entries.insert name c' (flush s cs)) with
            ⟨e | u, cs'⟩
          · rfl
          · rfl

end

theorem finish_update (s : Statement) (parameter : Value) (w : Caches MapStore × σ) :
    finish inner 2 (.update s parameter .changing) w =
      (inner.cached.update s parameter w).map fun (r, w) => (.update s parameter (.changed r), w) := by
  obtain ⟨cs, st⟩ := w
  rw [finish_succ rfl, step, UpdatePhase.step]
  dsimp only [cached]
  cases inner.update s parameter st with
  | none => rfl
  | some x => exact finish_succ rfl 0 _

end Client
end

structure Traffic (σ : Type) where
  caches : Caches MapStore
  state : σ
  /-- Every client that ever came, in the order in which they came. -/
  clients : List Client

namespace Traffic

inductive Event where
  | query (s : Statement) (b : BoundSql) (bounds : RowBounds)
  | update (s : Statement) (parameter : Value)
  | proceed (client : Nat)

variable {σ : Type} (inner : Executor σ)

def step (t : Traffic σ) : Event → Traffic σ
  | .query s b bounds => { t with clients := t.clients ++ [.query s b bounds .asking] }
  | .update s parameter => { t with clients := t.clients ++ [.update s parameter .changing] }
  | .proceed i =>
    match t.clients[i]? with
    | none => t
    | some c =>
      match c.step inner (t.caches, t.state) with
      | none => t
      | some (c, cs, st) => ⟨cs, st, t.clients.set i c⟩

def run (t : Traffic σ) (events : List Event) : Traffic σ := events.foldl (step inner) t

variable {inner}

theorem run_preserves {I : Traffic σ → Prop} (hstep : ∀ t e, I t → I (t.step inner e))
    {t : Traffic σ} (h : I t) (events : List Event) : I (t.run inner events) := by
  unfold run
  induction events generalizing t with
  | nil => exact h
  | cons e events ih => exact ih (hstep t e h)

end Traffic

/-- A state, with everything that was ever read from it. -/
structure Journal (σ : Type) where
  state : σ
  readings : List (CacheKey × List Row)

def Executor.journaled {σ : Type} (inner : Executor σ) : Executor (Journal σ) where
  query s b bounds j := (inner.query s b bounds j.state).map fun (r, st) =>
    let reading := r.toOption.map fun rows => (inner.key s b bounds, rows)
    (r, ⟨st, j.readings ++ reading.toList⟩)
  update s parameter j := (inner.update s parameter j.state).map fun (r, st) =>
    (r, { j with state := st })
  key := inner.key

def Traffic.plain {σ : Type} (t : Traffic (Journal σ)) : Traffic σ :=
  ⟨t.caches, t.state.state, t.clients⟩

section

variable {σ : Type} (inner : Executor σ)

theorem Client.step_journaled (c : Client) (cs : Caches MapStore) (j : Journal σ) :
    c.step inner (cs, j.state) = (c.step inner.journaled (cs, j)).map fun (c, cs, j) =>
      (c, cs, j.state) := by
  cases c with
  | query s b bounds phase =>
    cases phase with
    | asking => rfl
    | looking =>
      dsimp only [step, QueryPhase.step]
      cases cacheOf? s cs with
      | none => rfl
      | some x =>
        dsimp only [journaled]
        cases x.2.get (inner.key s b bounds) with
        | none => rfl
        | some y => rfl
    | loading cache =>
      dsimp only [step, QueryPhase.step, journaled]
      cases inner.query s b bounds j.state with
      | none => rfl
      | some x => rfl
    | filling name rows => rfl
    | givingUp name e => rfl
    | answered r => rfl
  | update s parameter phase =>
    cases phase with
    | changing =>
      dsimp only [step, UpdatePhase.step, journaled]
      cases inner.update s parameter j.state with
      | none => rfl
      | some x => rfl
    | clearing r => rfl
    | changed r => rfl

/-- Nothing happens otherwise because it is written down. -/
theorem Traffic.plain_run (t : Traffic (Journal σ)) (events : List Event) :
    (t.run inner.journaled events).plain = t.plain.run inner events := by
  unfold run
  -- On what happens; the readings at the moment may be any.
  induction events generalizing t with
  | nil => rfl
  | cons e events ih =>
    have hstep : (t.step inner.journaled e).plain = t.plain.step inner e := by
      cases e with
      | query s b bounds => rfl
      | update s parameter => rfl
      | proceed i =>
        dsimp only [step, plain]
        cases t.clients[i]? with
        | none => rfl
        | some c =>
          dsimp only
          rw [c.step_journaled inner]
          cases c.step inner.journaled (t.caches, t.state) with
          | none => rfl
          | some x => rfl
    rw [List.foldl_cons, List.foldl_cons, ih, hstep]

end
end SqlMapper
