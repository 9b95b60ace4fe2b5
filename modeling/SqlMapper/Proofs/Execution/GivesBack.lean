import SqlMapper.Cache.Faulty
import SqlMapper.Proofs.Cache.Locked
import SqlMapper.Proofs.Execution.Transparency
import SqlMapper.Proofs.Pool.Borrowing

/-!
However a request ends, it gives back what it took on its way: the key that it locked in a cache,
whatever is behind the cache, and the connection that it took from a pool.
-/

namespace SqlMapper

/-- What a run that takes at most one connection leaves of a pool: it took none, it could get none,
or the one that it got is no longer in use. -/
inductive Pool.GotBack {ω : Type} [Server ω] [Clock ω] (p : Pool) (l : Ledger ω) :
    Pool × Ledger ω → Prop where
  | untouched : GotBack p l (p, l)
  | refused {e : Error} {p' : Pool} {l' : Ledger ω}
      (hconnection : p.connection undisturbed l = some (.error e, p', l')) :
    GotBack p l (p', l')
  | returned {handle : Handle} {p₁ p' : Pool} {l₁ l' : Ledger ω}
      (hconnection : p.connection undisturbed l = some (.ok handle, p₁, l₁))
      (hgone : ∀ slot ∈ p'.active, slot.wrapper ≠ handle.wrapper ∧
        slot.physical.connection ≠ handle.physical.connection) :
    GotBack p l (p', l')

namespace Executor

section

variable {σ β : Type} [Store β] {inner : Executor σ} {cs : Caches β} {st : σ}

/-- A query that looks into a cache leaves no key locked, and asks the executor behind it at most
once. -/
theorem cachedQuery_keeps_locks (hplanned : cs.ArePlanned) {s : Statement} {b : BoundSql}
    {bounds : RowBounds} {r : Except Error (List Row)} {w : Caches β × σ}
    (h : cachedQuery inner s b bounds (cs, st) = some (r, w)) :
    cs.SameLocks w.1 ∧ (w.2 = st ∨ ∃ r', inner.query s b bounds st = some (r', w.2)) := by
  have hflush := Caches.SameLocks.flush cs s
  have hplanned' := hplanned.flush s
  -- A look that did not come back empty leaves the locks as they were.
  have hlook {name : String} {c c' : Cache β} {found : Except Error (Option Value)}
      (hcache : cacheOf? s (flush s cs) = some (name, c))
      (hget : c.get (inner.key s b bounds) = some (found, c')) (hfound : found ≠ .ok none) :
      cs.SameLocks (Entries.insert name c' (flush s cs)) := by
    obtain ⟨-, hc⟩ := Caches.cacheOf?_eq_some hcache
    rcases (hplanned' name c hc).locked_get hget with ⟨hmissed, -⟩ | ⟨-, hlocked⟩
    · exact absurd hmissed hfound
    · exact hflush.trans (.insert hc hlocked)
  cases answers_cachedQuery h with
  | past hread => exact ⟨hflush, .inr ⟨_, hread⟩⟩
  | failed hcache hget => exact ⟨hlook hcache hget nofun, .inl rfl⟩
  | found hcache hget => exact ⟨hlook hcache hget nofun, .inl rfl⟩
  | @unread name c c' e st' hcache hget hread =>
    obtain ⟨-, hc⟩ := Caches.cacheOf?_eq_some hcache
    exact ⟨hflush.trans (.giveUp hc (hplanned' name c hc) hget), .inr ⟨_, hread⟩⟩
  | @read name c c' rows st' hcache hget hread =>
    obtain ⟨-, hc⟩ := Caches.cacheOf?_eq_some hcache
    exact ⟨hflush.trans (.fill hc (hplanned' name c hc) hget rows), .inr ⟨_, hread⟩⟩

/-- A cached executor leaves the locks of its caches as it found them, whatever is behind it. -/
theorem serve_keeps_locks (hplanned : cs.ArePlanned) {request : Request} {w : Caches β × σ}
    (h : inner.cached.serve (cs, st) request = some w) :
    cs.SameLocks w.1 ∧ (w.2 = st ∨ inner.serve st request = some w.2) := by
  cases request with
  | query s b bounds =>
    obtain ⟨⟨r, w₀⟩, hrun, rfl⟩ := Option.map_eq_some_iff.mp h
    obtain ⟨hlocks, hsame | ⟨r', hread⟩⟩ := cachedQuery_keeps_locks hplanned hrun
    · exact ⟨hlocks, .inl hsame⟩
    · exact ⟨hlocks, .inr (by rw [serve, hread, Option.map_some])⟩
  | select s parameter bounds =>
    obtain ⟨⟨r, w₀⟩, hrun, rfl⟩ := Option.map_eq_some_iff.mp h
    unfold select at hrun
    split at hrun
    · obtain ⟨rfl, rfl⟩ := Prod.mk.inj (Option.some.inj hrun)
      exact ⟨.refl cs, .inl rfl⟩
    · rename_i b hb
      obtain ⟨hlocks, hsame | ⟨r', hread⟩⟩ := cachedQuery_keeps_locks hplanned hrun
      · exact ⟨hlocks, .inl hsame⟩
      · refine ⟨hlocks, .inr ?_⟩
        rw [serve, select, hb]
        dsimp only
        rw [hread, Option.map_some]
  | update s parameter =>
    obtain ⟨⟨r, w₀⟩, hrun, rfl⟩ := Option.map_eq_some_iff.mp h
    obtain ⟨⟨r₀, st₀⟩, hupdate, heq⟩ := Option.map_eq_some_iff.mp hrun
    obtain ⟨rfl, rfl⟩ := Prod.mk.inj heq
    exact ⟨.flush cs s, .inr (by rw [serve, hupdate, Option.map_some])⟩

end

section

variable {ω : Type} [Server ω] [Clock ω] {p : Pool} {l : Ledger ω} {w : Pool × Ledger ω}
  {cs : Multiset Candidate} {ds : Multiset Slot} {hs : List (Nat × Physical)}
  {calls : Multiset Ongoing}

/-- Whatever is done with a connection, and however it ends, the connection is given back. -/
theorem withConnection_gives_back (hseparate : (Inventory.of p l cs ds hs calls).Separate)
    (hthere : p.dropped = false) {α : Type} (step : Caller (Ledger ω) → Action (Ledger ω) α)
    {r : Except Error α} (h : withConnection step (p, l) = some (r, w)) :
    p.GotBack l w ∧ w.1.active ⊆ p.active := by
  unfold withConnection at h
  dsimp only at h
  split at h
  · exact absurd h (by simp)
  · rename_i e p₁ l₁ hconnection
    obtain ⟨-, hlends⟩ := Pool.connection_lends hseparate hconnection
    obtain ⟨-, rfl⟩ := Prod.mk.inj (Option.some.inj h)
    cases hlends with
    | failed hactive => exact ⟨.refused hconnection, hactive⟩
  · rename_i handle p₁ l₁ hconnection
    obtain ⟨hdropped, hlends⟩ := Pool.connection_lends hseparate hconnection
    -- Whatever the step does with the connection, it leaves some ledger.
    obtain ⟨hactive, hgone⟩ := hlends.release (hdropped.trans hthere)
      ((step (handle.perform p₁)).run l₁).2
    obtain ⟨-, rfl⟩ := Prod.mk.inj (Option.some.inj h)
    exact ⟨.returned hconnection hgone, hactive⟩

/-- The direct executor gives back the connection that it takes, whatever the statement does. -/
theorem serve_direct_gives_back (hseparate : (Inventory.of p l cs ds hs calls).Separate)
    (hthere : p.dropped = false) {handler : Handler (Ledger ω)} {environment : Option String}
    {request : Request} (h : (direct handler environment).serve (p, l) request = some w) :
    p.GotBack l w ∧ w.1.active ⊆ p.active := by
  have hquery {s : Statement} {b : BoundSql} {bounds : RowBounds} {r : Except Error (List Row)}
      {w : Pool × Ledger ω}
      (hrun : (direct handler environment).query s b bounds (p, l) = some (r, w)) :
      p.GotBack l w ∧ w.1.active ⊆ p.active :=
    withConnection_gives_back hseparate hthere (handler.query · s b bounds) hrun
  cases request with
  | query s b bounds =>
    obtain ⟨⟨r, w₀⟩, hrun, rfl⟩ := Option.map_eq_some_iff.mp h
    exact hquery hrun
  | select s parameter bounds =>
    obtain ⟨⟨r, w₀⟩, hrun, rfl⟩ := Option.map_eq_some_iff.mp h
    unfold select at hrun
    split at hrun
    · obtain ⟨rfl, rfl⟩ := Prod.mk.inj (Option.some.inj hrun)
      exact ⟨.untouched, List.Subset.refl _⟩
    · exact hquery hrun
  | update s parameter =>
    obtain ⟨⟨r, w₀⟩, hrun, rfl⟩ := Option.map_eq_some_iff.mp h
    unfold direct at hrun
    dsimp only at hrun
    split at hrun
    · obtain ⟨rfl, rfl⟩ := Prod.mk.inj (Option.some.inj hrun)
      exact ⟨.untouched, List.Subset.refl _⟩
    · rename_i b hb
      exact withConnection_gives_back hseparate hthere (handler.update · s b) hrun

/-- After any request to cached statements over a pool, answered or failed, the same keys are locked
as before, in every cache, and nothing is in use in the pool that was not in use before, least of
all a connection that the request took. The stores behind the caches, the server and the handler may
fail at any call, and the pool may be in the midst of whatever happened before. -/
theorem serve_gives_back {β : Type} [Store β] (handler : Handler (Ledger ω))
    (environment : Option String) (settings : ConnectionSettings) (config : PoolConfig) (server : ω)
    (events : List (Scene.Event ω)) (request : Request) {cs : Caches β}
    (hplanned : cs.ArePlanned) {w : Caches β × Pool × Ledger ω} :
    let s := (Scene.start settings config server).run events
    s.pool.dropped = false →
    (direct handler environment).cached.serve (cs, s.pool, s.ledger) request = some w →
    cs.SameLocks w.1 ∧ s.pool.GotBack s.ledger w.2 ∧ w.2.1.active ⊆ s.pool.active := by
  intro s hthere hserve
  obtain ⟨hseparate, -⟩ := Scene.holds_run settings config server events
  obtain ⟨hlocks, hsame | hdirect⟩ := serve_keeps_locks hplanned hserve
  -- The request was answered from a cache.
  · rw [hsame]
    exact ⟨hlocks, .untouched, List.Subset.refl _⟩
  · exact ⟨hlocks, serve_direct_gives_back hseparate hthere hdirect⟩

end

def unfillable : FaultyStore := { FaultyStore.empty "t" with fails := (· == .put) }

/-- A query finds nothing, takes the only connection from its holder, and cannot store its rows. The
key is free again, and nobody has the connection. -/
theorem gives_back_unfilled :
    let plan : CachePlan := ⟨"t", some 1, true, true, none⟩
    let s := Scene.narrow.run Scene.acquiring
    ∃ c w e, plan.build unfillable = .ok c ∧
      (direct .plain none).cached.select (showing "t") .null .all
        ([("t", c)], s.pool, s.ledger) = some (.error e, w) ∧
      Caches.SameLocks [("t", c)] w.1 ∧ s.pool.GotBack s.ledger w.2 ∧
      w.2.1.active ⊆ s.pool.active := by
  intro plan s
  obtain ⟨c, w, e, hbuild, hselect⟩ : ∃ c w e, plan.build unfillable = .ok c ∧
      (direct .plain none).cached.select (showing "t") .null .all
        ([("t", c)], s.pool, s.ledger) = some (.error e, w) := ⟨_, _, _, rfl, rfl⟩
  have hplanned : Caches.ArePlanned [("t", c)] := by
    intro name c' hc'
    rw [Entries.lookup_cons_eq_ite] at hc'
    split at hc'
    · exact ⟨plan, unfillable, c, hbuild, by rw [← Option.some.inj hc']⟩
    · exact absurd hc' (by simp)
  have hserve : (direct .plain none).cached.serve ([("t", c)], s.pool, s.ledger)
      (.select (showing "t") .null .all) = some w := by
    rw [serve, hselect, Option.map_some]
  have hthere : s.pool.dropped = false := rfl
  let config : PoolConfig := { PoolConfig.standard with maxActive := 1, maxCheckoutTime := .zero }
  have hnarrow : Scene.start (.ofUrl "") config ⟨0⟩ = Scene.narrow := rfl
  have hgiven := serve_gives_back (ω := Willing) .plain none (.ofUrl "") config ⟨0⟩ Scene.acquiring
    (.select (showing "t") .null .all) hplanned (w := w)
  rw [hnarrow] at hgiven
  exact ⟨c, w, e, hbuild, hselect, hgiven hthere hserve⟩

end Executor
end SqlMapper
