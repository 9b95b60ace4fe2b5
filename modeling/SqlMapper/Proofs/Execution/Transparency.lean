import SqlMapper.Proofs.Cache.Contents
import SqlMapper.Proofs.Execution.Keys

/-!
A cache in front of an executor shows nothing but what the executor would show, as long as every
change of what is read clears it. Every entry is what a query of its key would read at the moment.
-/

namespace SqlMapper

inductive Request where
  | query (s : Statement) (b : BoundSql) (bounds : RowBounds)
  | select (s : Statement) (parameter : Value) (bounds : RowBounds)
  | update (s : Statement) (parameter : Value)

def Request.IsCachedIn (name : String) : Request → Prop
  | .query s _ _ | .select s _ _ => s.cache = some name
  | .update s _ => s.cache = some name ∧ s.flushesCache = true

namespace Executor

variable {σ δ : Type}

def serve (e : Executor σ) (st : σ) : Request → Option σ
  | .query s b bounds => (e.query s b bounds st).map (·.2)
  | .select s parameter bounds => (e.select s parameter bounds st).map (·.2)
  | .update s parameter => (e.update s parameter st).map (·.2)

def serveAll (e : Executor σ) (requests : List Request) (st : σ) : Option σ :=
  requests.foldlM e.serve st

/-- An executor on a database. The rows of a query are a function of what the database contains, the
text, the values and the bounds, and no query changes what it contains. -/
structure Reads (inner : Executor σ) (contents : σ → δ)
    (answer : δ → String → List Value → RowBounds → Option (List Row))
    (environment : Option String) : Prop where
  key : inner.key = directKey environment
  rows : ∀ s b bounds st rows st', inner.query s b bounds st = some (.ok rows, st') →
    answer (contents st) b.sql b.values bounds = some rows
  keeps : ∀ s b bounds st r st', inner.query s b bounds st = some (r, st') →
    contents st' = contents st

def IsFresh (answer : δ → String → List Value → RowBounds → Option (List Row))
    (environment : Option String) (database : δ) (k : CacheKey) (v : Value) : Prop :=
  ∀ s b bounds, directKey environment s b bounds = k →
    answer database b.sql b.values bounds = some v.toRows

/-- A key says everything on which a query depends. -/
theorem directKey_inj {environment : Option String} {s s' : Statement} {b b' : BoundSql}
    {bounds bounds' : RowBounds}
    (h : directKey environment s b bounds = directKey environment s' b' bounds') :
    b.sql = b'.sql ∧ b.values = b'.values ∧ bounds = bounds' := by
  obtain ⟨-, hoffset, hlimit, hsql, htail⟩ := directKey_inj_iff.mp h
  refine ⟨hsql, List.append_cancel_right htail, ?_⟩
  cases bounds
  cases bounds'
  rw [RowBounds.mk.injEq]
  exact ⟨hoffset, hlimit⟩

variable {inner : Executor σ} {contents : σ → δ}
  {answer : δ → String → List Value → RowBounds → Option (List Row)} {environment : Option String}
  {name : String} {β : Type} [Store β]

/-- Rows that were read just now are fresh under their key. -/
theorem isFresh_ofRows {database : δ} {s : Statement} {b : BoundSql} {bounds : RowBounds}
    {rows : List Row} (h : answer database b.sql b.values bounds = some rows) :
    IsFresh answer environment database (directKey environment s b bounds) (.ofRows rows) := by
  intro s' b' bounds' hkey
  obtain ⟨hsql, hvalues, hbounds⟩ := directKey_inj hkey
  rw [hsql, hvalues, hbounds, Value.toRows_ofRows]
  exact h

/-- What can come of a query that looks into a cache, once it has cleared what it has to clear: it
does not look, and reads; the look fails; it finds something; it finds nothing and cannot read, and
gives its key back; or it fills its key with what it read. -/
inductive Answers (inner : Executor σ) (s : Statement) (b : BoundSql) (bounds : RowBounds)
    (cs : Caches β) (st : σ) : Except Error (List Row) → Caches β × σ → Prop where
  | past {r : Except Error (List Row)} {st' : σ}
      (hread : inner.query s b bounds st = some (r, st')) :
    Answers inner s b bounds cs st r (cs, st')
  | failed {name : String} {c c' : Cache β} {e : Error}
      (hcache : cacheOf? s cs = some (name, c))
      (hget : c.get (inner.key s b bounds) = some (.error e, c')) :
    Answers inner s b bounds cs st (.error e) (Entries.insert name c' cs, st)
  | found {name : String} {c c' : Cache β} {v : Value}
      (hcache : cacheOf? s cs = some (name, c))
      (hget : c.get (inner.key s b bounds) = some (.ok (some v), c')) :
    Answers inner s b bounds cs st (.ok v.toRows) (Entries.insert name c' cs, st)
  | unread {name : String} {c c' : Cache β} {e : Error} {st' : σ}
      (hcache : cacheOf? s cs = some (name, c))
      (hget : c.get (inner.key s b bounds) = some (.ok none, c'))
      (hread : inner.query s b bounds st = some (.error e, st')) :
    Answers inner s b bounds cs st (.error e)
      (giveUp (inner.key s b bounds) name (Entries.insert name c' cs), st')
  | read {name : String} {c c' : Cache β} {rows : List Row} {st' : σ}
      (hcache : cacheOf? s cs = some (name, c))
      (hget : c.get (inner.key s b bounds) = some (.ok none, c'))
      (hread : inner.query s b bounds st = some (.ok rows, st')) :
    Answers inner s b bounds cs st
      ((fill (inner.key s b bounds) rows name (Entries.insert name c' cs)).1.map fun _ => rows)
      ((fill (inner.key s b bounds) rows name (Entries.insert name c' cs)).2, st')

/-- A cached query answers what it finds, or what the executor behind the cache answers, which it
then stores. -/
theorem answers_cachedQuery {s : Statement} {b : BoundSql} {bounds : RowBounds}
    {w w' : Caches β × σ} {r : Except Error (List Row)}
    (h : cachedQuery inner s b bounds w = some (r, w')) :
    inner.Answers s b bounds (flush s w.1) w.2 r w' := by
  unfold cachedQuery at h
  dsimp only at h
  split at h
  · obtain ⟨⟨r₀, st₀⟩, hread, heq⟩ := Option.map_eq_some_iff.mp h
    obtain ⟨rfl, rfl⟩ := Prod.mk.inj heq
    exact .past hread
  rename_i name c hcache
  split at h
  · exact absurd h (by simp)
  rename_i found c' hget
  split at h
  · obtain ⟨rfl, rfl⟩ := Prod.mk.inj (Option.some.inj h)
    exact .failed hcache hget
  · obtain ⟨rfl, rfl⟩ := Prod.mk.inj (Option.some.inj h)
    exact .found hcache hget
  split at h
  · exact absurd h (by simp)
  · rename_i e st₀ hread
    obtain ⟨rfl, rfl⟩ := Prod.mk.inj (Option.some.inj h)
    exact .unread hcache hget hread
  rename_i rows st₀ hread
  have hanswers : inner.Answers s b bounds (flush s w.1) w.2 _ _ := .read hcache hget hread
  generalize fill (inner.key s b bounds) rows name (Entries.insert name c' (flush s w.1)) = x
    at h hanswers
  obtain ⟨e | u, cs⟩ := x
  · obtain ⟨rfl, rfl⟩ := Prod.mk.inj (Option.some.inj h)
    exact hanswers
  · obtain ⟨rfl, rfl⟩ := Prod.mk.inj (Option.some.inj h)
    exact hanswers

/-- A cached query keeps every entry fresh, and answers with fresh rows, found or read. -/
theorem Reads.answers (h : inner.Reads contents answer environment) {s : Statement}
    {b : BoundSql} {bounds : RowBounds} (hs : s.cache = some name) {cs : Caches MapStore} {st : σ}
    {w : Caches MapStore × σ} {r : Except Error (List Row)}
    (hfresh : cs.Hold name (IsFresh answer environment (contents st)))
    (hanswers : inner.Answers s b bounds cs st r w) :
    contents w.2 = contents st ∧ w.1.Hold name (IsFresh answer environment (contents st)) ∧
      ∀ rows, r = .ok rows → answer (contents st) b.sql b.values bounds = some rows := by
  -- A cache into which the query looks is the one of the name.
  have hlook {other : String} {c c' : Cache MapStore} {found : Except Error (Option Value)}
      (hcache : cacheOf? s cs = some (other, c))
      (hget : c.get (inner.key s b bounds) = some (found, c')) :
      Caches.Hold name (IsFresh answer environment (contents st)) (Entries.insert other c' cs) ∧
        ∀ v, found = .ok (some v) →
          IsFresh answer environment (contents st) (inner.key s b bounds) v := by
    obtain ⟨hother, hlookup⟩ := Caches.cacheOf?_eq_some hcache
    obtain rfl : other = name := Option.some.inj (hother.symm.trans hs)
    obtain ⟨hstored, hfound⟩ := Cache.stored_get hget
    refine ⟨hfresh.replace hlookup hstored, ?_⟩
    exact fun v hv => hfresh c hlookup _ v (hfound v hv)
  cases hanswers with
  | past hread =>
    refine ⟨h.keeps _ _ _ _ _ _ hread, hfresh, ?_⟩
    rintro rows rfl
    exact h.rows _ _ _ _ _ _ hread
  | failed hcache hget => exact ⟨rfl, (hlook hcache hget).1, nofun⟩
  | found hcache hget =>
    obtain ⟨hlooked, hentry⟩ := hlook hcache hget
    refine ⟨rfl, hlooked, ?_⟩
    rintro rows hrows
    obtain rfl := Except.ok.inj hrows
    exact hentry _ rfl s b bounds (by rw [h.key])
  | unread hcache hget hread =>
    exact ⟨h.keeps _ _ _ _ _ _ hread, (hlook hcache hget).1.giveUp _ _, nofun⟩
  | @read other c c' rows st' hcache hget hread =>
    have hrows := h.rows _ _ _ _ _ _ hread
    refine ⟨h.keeps _ _ _ _ _ _ hread, ?_, ?_⟩
    · refine (hlook hcache hget).1.fill fun _ => ?_
      rw [h.key]
      exact isFresh_ofRows hrows
    · intro rows' hrows'
      cases hfill : (fill (inner.key s b bounds) rows other (Entries.insert other c' cs)).1 with
      | error e =>
        rw [hfill] at hrows'
        exact absurd hrows' (by simp [Except.map])
      | ok u =>
        rw [hfill] at hrows'
        obtain rfl := Except.ok.inj hrows'
        exact hrows

/-- A request leaves every entry what a query of its key would read. -/
theorem Reads.serve (h : inner.Reads contents answer environment) {w w' : Caches MapStore × σ}
    {r : Request} (hr : r.IsCachedIn name)
    (hfresh : w.1.Hold name (IsFresh answer environment (contents w.2)))
    (hserve : inner.cached.serve w r = some w') :
    w'.1.Hold name (IsFresh answer environment (contents w'.2)) := by
  have hquery {s : Statement} {b : BoundSql} {bounds : RowBounds} {r : Except Error (List Row)}
      (hs : s.cache = some name) (hrun : inner.cached.query s b bounds w = some (r, w')) :
      w'.1.Hold name (IsFresh answer environment (contents w'.2)) := by
    obtain ⟨hkeeps, hfresh', -⟩ := h.answers hs (hfresh.flush s) (answers_cachedQuery hrun)
    rw [hkeeps]
    exact hfresh'
  cases r with
  | query s b bounds =>
    obtain ⟨⟨r, w₀⟩, hrun, rfl⟩ := Option.map_eq_some_iff.mp hserve
    exact hquery hr hrun
  | select s parameter bounds =>
    obtain ⟨⟨r, w₀⟩, hrun, rfl⟩ := Option.map_eq_some_iff.mp hserve
    unfold select at hrun
    split at hrun
    · obtain ⟨rfl, rfl⟩ := Prod.mk.inj (Option.some.inj hrun)
      exact hfresh
    · exact hquery hr hrun
  | update s parameter =>
    -- Whatever the update did to the database, no entry is left.
    obtain ⟨⟨r, w₀⟩, hrun, rfl⟩ := Option.map_eq_some_iff.mp hserve
    obtain ⟨⟨r₀, st⟩, -, heq⟩ := Option.map_eq_some_iff.mp hrun
    obtain ⟨rfl, rfl⟩ := Prod.mk.inj heq
    exact Caches.hold_flush hr.1 hr.2 _

theorem Reads.serveAll (h : inner.Reads contents answer environment) {requests : List Request}
    (hrequests : ∀ r ∈ requests, r.IsCachedIn name) {w w' : Caches MapStore × σ}
    (hfresh : w.1.Hold name (IsFresh answer environment (contents w.2)))
    (hrun : inner.cached.serveAll requests w = some w') :
    w'.1.Hold name (IsFresh answer environment (contents w'.2)) := by
  unfold Executor.serveAll at hrun
  -- On the requests: the invariant holds for the contents at the moment, whatever they are.
  induction requests generalizing w with
  | nil =>
    obtain rfl : w = w' := Option.some.inj hrun
    exact hfresh
  | cons r requests ih =>
    rw [List.foldlM_cons] at hrun
    obtain ⟨w₀, hserve, hrest⟩ := Option.bind_eq_some_iff.mp hrun
    have hfirst : r.IsCachedIn name := hrequests r List.mem_cons_self
    have hothers : ∀ r ∈ requests, r.IsCachedIn name :=
      fun r hr => hrequests r (List.mem_cons_of_mem _ hr)
    exact ih hothers (h.serve hfirst hfresh hserve) hrest

/-- A cache that starts empty is transparent. After any requests that work with it, of which every
one that changes anything clears it, a query that succeeds answers exactly the rows that the
executor behind the cache reads from the database as it is at that moment. -/
theorem serveAll_transparent (h : inner.Reads contents answer environment) {plan : CachePlan}
    {c : Cache MapStore} (hplan : plan.buildInMemory = .ok c) {cs : Caches MapStore}
    (hc : cs.lookup name = some c) {requests : List Request}
    (hrequests : ∀ r ∈ requests, r.IsCachedIn name) {st : σ} {w : Caches MapStore × σ}
    (hrun : inner.cached.serveAll requests (cs, st) = some w) {s : Statement}
    (hs : s.cache = some name) (bounds : RowBounds) (rows : List Row)
    (w' : Caches MapStore × σ) :
    (∀ b, inner.cached.query s b bounds w = some (.ok rows, w') →
      answer (contents w.2) b.sql b.values bounds = some rows) ∧
    ∀ parameter, inner.cached.select s parameter bounds w = some (.ok rows, w') →
      ∃ b, s.source.bound parameter = .ok b ∧
        answer (contents w.2) b.sql b.values bounds = some rows := by
  have hstart : cs.Hold name (IsFresh answer environment (contents st)) := by
    intro c₀ hc₀
    obtain rfl : c = c₀ := Option.some.inj (hc.symm.trans hc₀)
    exact Cache.holds_of_buildInMemory hplan
  have hfresh := h.serveAll hrequests hstart hrun
  have hquery (b : BoundSql) (hb : inner.cached.query s b bounds w = some (.ok rows, w')) :
      answer (contents w.2) b.sql b.values bounds = some rows :=
    (h.answers hs (hfresh.flush s) (answers_cachedQuery hb)).2.2 rows rfl
  refine ⟨hquery, ?_⟩
  intro parameter hselect
  unfold select at hselect
  split at hselect
  · exact absurd hselect (by simp)
  · rename_i b hb
    exact ⟨b, hb, hquery b hselect⟩

def counter : Executor Nat where
  query _ _ _ n := some (.ok [[("n", .int (.ofNat n))]], n)
  update _ parameter n := some (if parameter.isNull then .error .connectionClosed else .ok 1, n + 1)
  key := directKey none

def showing (cache : String) : Statement :=
  { Statement.standard "show" .select (.fixed ⟨"SELECT n", []⟩) with cache := some cache }

def counting (cache : String) : Statement :=
  { Statement.standard "count" .update (.fixed ⟨"UPDATE t", []⟩) with cache := some cache }

theorem reads_counter : counter.Reads id
    (fun n _ _ _ => some [[("n", .int (.ofNat n))]]) none where
  key := rfl
  rows := by
    rintro s b bounds n rows n' h
    obtain ⟨hrows, -⟩ := Prod.mk.inj (Option.some.inj h)
    exact congrArg some (Except.ok.inj hrows)
  keeps := by
    rintro s b bounds n r n' h
    exact (Prod.mk.inj (Option.some.inj h)).2.symm

/-- After a query whose rows were cached and an update that changed the number although it failed,
the next query shows the number as it is. -/
theorem transparent_counter :
    let plan : CachePlan := ⟨"t", some 1, true, true, none⟩
    let requests : List Request :=
      [.select (showing "t") .null .all, .update (counting "t") .null]
    ∃ c w w' rows, plan.buildInMemory = .ok c ∧
      counter.cached.serveAll requests ([("t", c)], 0) = some w ∧ w.2 = 1 ∧
      counter.cached.select (showing "t") .null .all w = some (.ok rows, w') ∧
      ∃ b, (showing "t").source.bound .null = .ok b ∧
        some [[("n", .int (.ofNat (id w.2)))]] = some rows := by
  intro plan requests
  have hrequests : ∀ r ∈ requests, r.IsCachedIn "t" :=
    List.forall_mem_cons.mpr ⟨rfl, List.forall_mem_singleton.mpr ⟨rfl, rfl⟩⟩
  obtain ⟨c, w, w', rows, hplan, hrun, hcounted, hselect⟩ : ∃ c w w' rows,
      plan.buildInMemory = .ok c ∧
      counter.cached.serveAll requests ([("t", c)], 0) = some w ∧ w.2 = 1 ∧
      counter.cached.select (showing "t") .null .all w = some (.ok rows, w') :=
    ⟨_, _, _, _, rfl, rfl, rfl, rfl⟩
  have hcache : (showing "t").cache = some "t" := rfl
  have hshown := serveAll_transparent reads_counter hplan rfl hrequests hrun hcache .all rows w'
  exact ⟨c, w, w', rows, hplan, hrun, hcounted, hselect, hshown.2 .null hselect⟩

end Executor
end SqlMapper
