import SqlMapper.Proofs.Execution.Traffic
import SqlMapper.Proofs.Execution.Transparency

/-!
Rows that are out of date. When an update clears its cache, rows that were read before may still be
on their way there, and are found when the update is long over. Nothing else comes back.
-/

namespace SqlMapper

open Executor

variable {σ : Type}

def Journal.HasSince (m : Nat) (key : CacheKey) (rows : List Row) (j : Journal σ) : Prop :=
  (key, rows) ∈ j.readings.drop m

theorem Journal.HasSince.of_grow {m : Nat} {key : CacheKey} {rows : List Row} {j j' : Journal σ}
    (h : j.HasSince m key rows) (hgrow : j.readings <+: j'.readings) : j'.HasSince m key rows := by
  obtain ⟨more, hmore⟩ := hgrow
  unfold HasSince
  rw [← hmore, List.drop_append]
  exact List.mem_append_left _ h

def QueryPhase.Carries (P : List Row → Prop) : QueryPhase → Prop
  | .filling _ rows | .answered (.ok rows) => P rows
  | _ => True

theorem QueryPhase.Carries.imp {P Q : List Row → Prop} {phase : QueryPhase}
    (h : phase.Carries P) (himp : ∀ rows, P rows → Q rows) : phase.Carries Q := by
  unfold Carries at *
  split
  · exact himp _ h
  · exact himp _ h
  · exact trivial

variable {inner : Executor σ} {name : String} {m : Nat}

/-- A query that reads after so many readings gives rows that were read since. -/
theorem journaled_query {s : Statement} {b : BoundSql} {bounds : RowBounds}
    {r : Except Error (List Row)} {j j' : Journal σ} (hread : m ≤ j.readings.length)
    (h : inner.journaled.query s b bounds j = some (r, j')) :
    j.readings <+: j'.readings ∧
      ∀ rows, r = .ok rows → j'.HasSince m (inner.key s b bounds) rows := by
  obtain ⟨⟨r₀, st⟩, -, hwritten⟩ := Option.map_eq_some_iff.mp h
  obtain ⟨rfl, rfl⟩ := Prod.mk.inj hwritten
  refine ⟨List.prefix_append _ _, ?_⟩
  -- What was read just now stands at the end.
  rintro rows rfl
  unfold Journal.HasSince
  rw [List.drop_append_of_le_length hread]
  exact List.mem_append_right _ (List.mem_singleton_self _)

structure QueryPhase.Renews (inner : Executor σ) (name : String) (m : Nat) (s : Statement)
    (b : BoundSql) (bounds : RowBounds) (phase phase' : QueryPhase) (j j' : Journal σ)
    (cs' : Caches MapStore) : Prop where
  stored : cs'.Hold name fun k v => j'.HasSince m k v.toRows
  filling : ∀ other rows, phase' = .filling other rows →
    j'.HasSince m (inner.key s b bounds) rows
  late : s.cache = some name →
    phase.Carries (fun rows => j.HasSince m (inner.key s b bounds) rows) →
    phase'.Carries fun rows => j'.HasSince m (inner.key s b bounds) rows

/-- Whatever the query has now was read lately. -/
theorem QueryPhase.Renews.of_carries {s : Statement} {b : BoundSql} {bounds : RowBounds}
    {phase phase' : QueryPhase} {j j' : Journal σ} {cs' : Caches MapStore}
    (hstored : cs'.Hold name fun k v => j'.HasSince m k v.toRows)
    (hcarries : phase'.Carries fun rows => j'.HasSince m (inner.key s b bounds) rows) :
    phase.Renews inner name m s b bounds phase' j j' cs' where
  stored := hstored
  filling := by
    rintro other rows rfl
    exact hcarries
  late _ _ := hcarries

/-- A step of a query stores and answers nothing but rows that were read since. -/
theorem QueryPhase.renews_step {s : Statement} {b : BoundSql} {bounds : RowBounds}
    {phase phase' : QueryPhase} {cs cs' : Caches MapStore} {j j' : Journal σ}
    (hread : m ≤ j.readings.length) (hstored : cs.Hold name fun k v => j.HasSince m k v.toRows)
    (hfilling : ∀ rows, phase = .filling name rows → j.HasSince m (inner.key s b bounds) rows)
    (h : phase.step inner.journaled s b bounds (cs, j) = some (phase', cs', j')) :
    phase.Renews inner name m s b bounds phase' j j' cs' := by
  cases phase with
  | asking =>
    obtain ⟨rfl, rfl, rfl⟩ : phase' = .looking ∧ cs' = flush s cs ∧ j' = j := by
      simpa [step, eq_comm] using h
    exact .of_carries (hstored.flush s) trivial
  | looking =>
    dsimp only [step] at h
    split at h
    · obtain ⟨rfl, rfl, rfl⟩ : phase' = .loading none ∧ cs' = cs ∧ j' = j := by
        simpa [eq_comm] using h
      exact .of_carries hstored trivial
    rename_i other c hcache
    obtain ⟨hother, hlookup⟩ := Caches.cacheOf?_eq_some hcache
    obtain ⟨⟨found, c'⟩, hget, heq⟩ := Option.map_eq_some_iff.mp h
    obtain ⟨hsame, hfound⟩ := Cache.stored_get hget
    have hlooked := hstored.replace hlookup hsame
    dsimp only at heq
    obtain ⟨rfl, hrest⟩ := Prod.mk.inj heq
    obtain ⟨rfl, rfl⟩ := Prod.mk.inj hrest
    rcases found with e | _ | v
    · exact .of_carries hlooked trivial
    · exact .of_carries hlooked trivial
    -- What is found was stored; nothing is known about it if the cache has another name.
    · refine ⟨hlooked, ?_, fun hs _ => ?_⟩
      · rintro other' rows ⟨⟩
      obtain rfl : other = name := Option.some.inj (hother.symm.trans hs)
      exact hstored c hlookup _ v (hfound v rfl)
  | loading cache =>
    obtain ⟨⟨r, j₀⟩, hquery, heq⟩ := Option.map_eq_some_iff.mp h
    obtain ⟨hgrow, hlast⟩ := journaled_query hread hquery
    dsimp only at heq
    obtain ⟨rfl, hrest⟩ := Prod.mk.inj heq
    obtain ⟨rfl, rfl⟩ := Prod.mk.inj hrest
    have hstored' : cs.Hold name fun k v => j₀.HasSince m k v.toRows := by
      intro c hc k v hv
      exact (hstored c hc k v hv).of_grow hgrow
    refine .of_carries hstored' ?_
    cases cache with
    | none =>
      cases r with
      | error e => exact trivial
      | ok rows => exact hlast rows rfl
    | some other =>
      cases r with
      | error e => exact trivial
      | ok rows => exact hlast rows rfl
  | filling other rows =>
    dsimp only [step] at h
    obtain ⟨rfl, hrest⟩ := Prod.mk.inj (Option.some.inj h)
    obtain ⟨rfl, rfl⟩ := Prod.mk.inj hrest
    -- The only place where anything gets into a cache: it must have been read lately already.
    refine ⟨?_, ?_, fun _ hcarries => ?_⟩
    · refine hstored.fill ?_
      rintro rfl
      rw [Value.toRows_ofRows]
      exact hfilling rows rfl
    · rintro other' rows' ⟨⟩
    · cases (fill (inner.journaled.key s b bounds) rows other cs).1 with
      | error e => exact trivial
      | ok u => exact hcarries
  | givingUp other e =>
    obtain ⟨rfl, hrest⟩ := Prod.mk.inj (Option.some.inj h)
    obtain ⟨rfl, rfl⟩ := Prod.mk.inj hrest
    exact .of_carries (hstored.giveUp _ _) trivial
  | answered r => exact absurd h (by simp [step])

/-- Nothing that was read is forgotten. -/
theorem Client.readings_grow {c c' : Client} {cs cs' : Caches MapStore} {j j' : Journal σ}
    (h : c.step inner.journaled (cs, j) = some (c', cs', j')) : j.readings <+: j'.readings := by
  cases c with
  | query s b bounds phase =>
    obtain ⟨⟨phase', w⟩, hphase, heq⟩ := Option.map_eq_some_iff.mp h
    obtain ⟨-, rfl⟩ := Prod.mk.inj heq
    cases phase with
    | asking =>
      cases hphase
      exact List.prefix_refl _
    | looking =>
      dsimp only [QueryPhase.step] at hphase
      split at hphase
      · cases hphase
        exact List.prefix_refl _
      · obtain ⟨x, -, hx⟩ := Option.map_eq_some_iff.mp hphase
        cases hx
        exact List.prefix_refl _
    | loading cache =>
      -- Only here is anything read.
      obtain ⟨⟨r, j₀⟩, hquery, hx⟩ := Option.map_eq_some_iff.mp hphase
      cases hx
      exact (journaled_query (Nat.zero_le _) hquery).1
    | filling name rows =>
      cases hphase
      exact List.prefix_refl _
    | givingUp name e =>
      cases hphase
      exact List.prefix_refl _
    | answered r => cases hphase
  | update s parameter phase =>
    obtain ⟨⟨phase', w⟩, hphase, heq⟩ := Option.map_eq_some_iff.mp h
    obtain ⟨-, rfl⟩ := Prod.mk.inj heq
    cases phase with
    | changing =>
      obtain ⟨⟨r, j₀⟩, hupdate, hx⟩ := Option.map_eq_some_iff.mp hphase
      obtain ⟨⟨r₀, st⟩, -, hy⟩ := Option.map_eq_some_iff.mp hupdate
      cases hy
      cases hx
      exact List.prefix_refl _
    | clearing r =>
      cases hphase
      exact List.prefix_refl _
    | changed r => cases hphase

theorem UpdatePhase.caches_step {s : Statement} {parameter : Value} {phase phase' : UpdatePhase}
    {cs cs' : Caches MapStore} {st st' : σ}
    (h : phase.step inner s parameter (cs, st) = some (phase', cs', st')) :
    cs' = cs ∨ cs' = flush s cs := by
  cases phase with
  | changing =>
    obtain ⟨x, -, hx⟩ := Option.map_eq_some_iff.mp h
    cases hx
    exact .inl rfl
  | clearing r =>
    cases h
    exact .inr rfl
  | changed r => cases h

namespace Traffic

/-- The cache of a name holds nothing but what was read after a number of readings, nothing else is
on its way there, and nothing else is answered to those who came after a number of clients. -/
structure Renewed (inner : Executor σ) (name : String) (m n : Nat) (t : Traffic (Journal σ)) :
    Prop where
  read : m ≤ t.state.readings.length
  stored : t.caches.Hold name fun k v => t.state.HasSince m k v.toRows
  filling : ∀ s b bounds rows, Client.query s b bounds (.filling name rows) ∈ t.clients →
    t.state.HasSince m (inner.key s b bounds) rows
  late : ∀ i, n ≤ i → ∀ s b bounds phase, t.clients[i]? = some (.query s b bounds phase) →
    s.cache = some name → phase.Carries fun rows => t.state.HasSince m (inner.key s b bounds) rows

variable {n : Nat} {t : Traffic (Journal σ)}

theorem Renewed.join (h : t.Renewed inner name m n) {c : Client}
    (hc : ∀ s b bounds phase, c = .query s b bounds phase → phase = .asking) :
    Renewed inner name m n { t with clients := t.clients ++ [c] } := by
  refine ⟨h.read, h.stored, ?_, ?_⟩
  · intro s b bounds rows hmem
    rcases List.mem_append.mp hmem with hmem | hmem
    · exact h.filling s b bounds rows hmem
    · have hasking := hc s b bounds _ (List.mem_singleton.mp hmem).symm
      exact absurd hasking (by simp)
  · intro i hi s b bounds phase hget hs
    dsimp only at hget
    by_cases hlt : i < t.clients.length
    · rw [List.getElem?_append_left hlt] at hget
      exact h.late i hi s b bounds phase hget hs
    · rw [List.getElem?_append_right (Nat.not_lt.mp hlt)] at hget
      have hmem := List.mem_singleton.mp (List.mem_of_getElem? hget)
      rw [hc s b bounds phase hmem.symm]
      exact trivial

/-- A client has taken a step. -/
theorem Renewed.set (h : t.Renewed inner name m n) {i : Nat} {c : Client} {cs : Caches MapStore}
    {j : Journal σ} (hgrow : t.state.readings <+: j.readings)
    (hstored : cs.Hold name fun k v => j.HasSince m k v.toRows)
    (hfilling : ∀ s b bounds rows, c = .query s b bounds (.filling name rows) →
      j.HasSince m (inner.key s b bounds) rows)
    (hlate : n ≤ i → ∀ s b bounds phase, c = .query s b bounds phase → s.cache = some name →
      phase.Carries fun rows => j.HasSince m (inner.key s b bounds) rows) :
    Renewed inner name m n ⟨cs, j, t.clients.set i c⟩ := by
  refine ⟨Nat.le_trans h.read hgrow.length_le, hstored, ?_, ?_⟩
  · intro s b bounds rows hmem
    rcases List.mem_or_eq_of_mem_set hmem with hmem | heq
    · exact (h.filling s b bounds rows hmem).of_grow hgrow
    · exact hfilling s b bounds rows heq.symm
  · intro k hk s b bounds phase hget hs
    dsimp only at hget
    by_cases hki : i = k
    · subst hki
      rw [List.getElem?_set_self'] at hget
      obtain ⟨_, -, heq⟩ := Option.map_eq_some_iff.mp hget
      exact hlate hk s b bounds phase heq hs
    · rw [List.getElem?_set_ne hki] at hget
      exact (h.late k hk s b bounds phase hget hs).imp fun rows hrows => hrows.of_grow hgrow

/-- Every event leaves the cache, and whoever will fill it, with rows that were read since. -/
theorem Renewed.step (h : t.Renewed inner name m n) (e : Event) :
    (t.step inner.journaled e).Renewed inner name m n := by
  cases e with
  | query s b bounds =>
    refine h.join ?_
    rintro s' b' bounds' phase ⟨⟩
    rfl
  | update s parameter =>
    refine h.join ?_
    rintro s' b' bounds' phase ⟨⟩
  | proceed i =>
    dsimp only [Traffic.step]
    cases hget : t.clients[i]? with
    | none => exact h
    | some c =>
      dsimp only
      cases hstep : c.step inner.journaled (t.caches, t.state) with
      | none => exact h
      | some x =>
        obtain ⟨c', cs, j⟩ := x
        have hgrow := Client.readings_grow hstep
        cases c with
        | query s b bounds phase =>
          obtain ⟨⟨phase', cs₀, j₀⟩, hphase, heq⟩ := Option.map_eq_some_iff.mp hstep
          obtain ⟨rfl, hrest⟩ := Prod.mk.inj heq
          obtain ⟨rfl, rfl⟩ := Prod.mk.inj hrest
          have hfilling : ∀ rows, phase = .filling name rows →
              t.state.HasSince m (inner.key s b bounds) rows := by
            rintro rows rfl
            exact h.filling s b bounds rows (List.mem_of_getElem? hget)
          have hrenews := QueryPhase.renews_step h.read h.stored hfilling hphase
          refine h.set hgrow hrenews.stored ?_ ?_
          · rintro s' b' bounds' rows ⟨⟩
            exact hrenews.filling name rows rfl
          · rintro hi s' b' bounds' phase'' ⟨⟩ hs
            exact hrenews.late hs (h.late i hi s b bounds phase hget hs)
        | update s parameter phase =>
          obtain ⟨⟨phase', cs₀, j₀⟩, hphase, heq⟩ := Option.map_eq_some_iff.mp hstep
          obtain ⟨rfl, hrest⟩ := Prod.mk.inj heq
          obtain ⟨rfl, rfl⟩ := Prod.mk.inj hrest
          have hcaches := UpdatePhase.caches_step hphase
          have hstored : t.caches.Hold name fun k v => j₀.HasSince m k v.toRows := by
            intro c hc k v hv
            exact (h.stored c hc k v hv).of_grow hgrow
          refine h.set hgrow ?_ ?_ ?_
          · rcases hcaches with rfl | rfl
            · exact hstored
            · exact hstored.flush s
          · rintro s' b' bounds' rows ⟨⟩
          · rintro hi s' b' bounds' phase'' ⟨⟩

theorem Renewed.run (h : t.Renewed inner name m n) (events : List Event) :
    (t.run inner.journaled events).Renewed inner name m n :=
  run_preserves (fun _ e ht => ht.step e) h events

theorem readings_grow_step (t : Traffic (Journal σ)) (e : Event) :
    t.state.readings <+: (t.step inner.journaled e).state.readings := by
  cases e with
  | query s b bounds => exact List.prefix_refl _
  | update s parameter => exact List.prefix_refl _
  | proceed i =>
    dsimp only [Traffic.step]
    cases t.clients[i]? with
    | none => exact List.prefix_refl _
    | some c =>
      dsimp only
      cases hstep : c.step inner.journaled (t.caches, t.state) with
      | none => exact List.prefix_refl _
      | some x => exact Client.readings_grow hstep

theorem readings_grow_run (t : Traffic (Journal σ)) (events : List Event) :
    t.state.readings <+: (t.run inner.journaled events).state.readings :=
  run_preserves (I := fun u : Traffic (Journal σ) => t.state.readings <+: u.state.readings)
    (fun u e hu => hu.trans (readings_grow_step u e)) (List.prefix_refl _) events

/-- The client that clears the cache of a name leaves a cache that holds nothing old. -/
theorem renewed_of_clearing {i : Nat} {s : Statement} {parameter : Value} {r : Except Error Nat}
    (hclearing : t.clients[i]? = some (.update s parameter (.clearing r)))
    (hcache : s.cache = some name) (hflush : s.flushesCache = true)
    (hread : m ≤ t.state.readings.length)
    (hfilling : ∀ s b bounds rows, Client.query s b bounds (.filling name rows) ∈ t.clients →
      t.state.HasSince m (inner.key s b bounds) rows) :
    (t.step inner.journaled (.proceed i)).Renewed inner name m t.clients.length := by
  have hstep : t.step inner.journaled (.proceed i) =
      ⟨flush s t.caches, t.state, t.clients.set i (.update s parameter (.changed r))⟩ := by
    dsimp only [Traffic.step]
    rw [hclearing]
    rfl
  rw [hstep]
  refine ⟨hread, Caches.hold_flush hcache hflush _, ?_, ?_⟩
  · intro s' b bounds rows hmem
    rcases List.mem_or_eq_of_mem_set hmem with hmem | heq
    · exact hfilling s' b bounds rows hmem
    · cases heq
  -- Nobody came since.
  · intro k hk s' b bounds phase hget
    have hlt := (List.getElem?_eq_some_iff.mp hget).1
    rw [List.length_set] at hlt
    exact absurd hlt (Nat.not_lt.mpr hk)

/-- Once an update is over, whoever comes and asks gets rows that were read after the update changed
what it changed, if only no older rows were on their way to the cache when the update cleared it. -/
theorem run_answers_renewed (inner : Executor σ) (t : Traffic (Journal σ)) (i : Nat)
    (s : Statement) (parameter : Value) (name : String) (meanwhile later : List Event)
    (r : Except Error Nat) :
    let changed := t.step inner.journaled (.proceed i)
    let m := changed.state.readings.length
    let clearing := changed.run inner.journaled meanwhile
    let t' := (clearing.step inner.journaled (.proceed i)).run inner.journaled later
    t.clients[i]? = some (.update s parameter .changing) → s.cache = some name →
      s.flushesCache = true → clearing.clients[i]? = some (.update s parameter (.clearing r)) →
      (∀ s b bounds rows, Client.query s b bounds (.filling name rows) ∈ clearing.clients →
        clearing.state.HasSince m (inner.key s b bounds) rows) →
      ∀ k s b bounds rows, clearing.clients.length ≤ k → s.cache = some name →
        t'.clients[k]? = some (.query s b bounds (.answered (.ok rows))) →
        t'.state.HasSince m (inner.key s b bounds) rows := by
  intro changed m clearing t' _ hcache hflush hclearing hfilling k s' b bounds rows hk hs hget
  have hread : m ≤ clearing.state.readings.length :=
    (readings_grow_run changed meanwhile).length_le
  have hrenewed := renewed_of_clearing hclearing hcache hflush hread hfilling
  exact (hrenewed.run later).late k hk s' b bounds _ hget hs

def shown : BoundSql := .ofTemplate ⟨"SELECT n", []⟩ .null

/-- A query has read the number, and has not put it into the cache yet, when an update comes. -/
def overtaken (c : Cache MapStore) : Traffic (Journal Nat) :=
  run counter.journaled ⟨[("t", c)], ⟨0, []⟩, []⟩
    [.query (showing "t") shown .all, .proceed 0, .proceed 0, .proceed 0,
      .update (counting "t") (.bool true)]

/-- If the cache is filled before the update clears it, whoever comes later reads anew. -/
theorem answers_renewed_rows :
    ∃ c, (CachePlan.standard "t").buildInMemory = .ok c ∧
      let changed := (overtaken c).step counter.journaled (.proceed 1)
      let clearing := changed.run counter.journaled [.proceed 0]
      let t := (clearing.step counter.journaled (.proceed 1)).run counter.journaled
        (.query (showing "t") shown .all :: List.replicate 4 (.proceed 2))
      t.clients[2]? =
        some (.query (showing "t") shown .all (.answered (.ok [[("n", .int 1)]]))) ∧
      t.state.HasSince changed.state.readings.length (counter.key (showing "t") shown .all)
        [[("n", .int 1)]] := by
  obtain ⟨c, hplan, hclients, hanswered, hclearing⟩ : ∃ c,
      (CachePlan.standard "t").buildInMemory = .ok c ∧
      let clearing := ((overtaken c).step counter.journaled (.proceed 1)).run counter.journaled
        [.proceed 0]
      let t := (clearing.step counter.journaled (.proceed 1)).run counter.journaled
        (.query (showing "t") shown .all :: List.replicate 4 (.proceed 2))
      clearing.clients = [.query (showing "t") shown .all (.answered (.ok [[("n", .int 0)]])),
        .update (counting "t") (.bool true) (.clearing (.ok 1))] ∧
      t.clients[2]? =
        some (.query (showing "t") shown .all (.answered (.ok [[("n", .int 1)]]))) ∧
      (overtaken c).clients[1]? = some (.update (counting "t") (.bool true) .changing) :=
    ⟨_, rfl, rfl, rfl, rfl⟩
  refine ⟨c, hplan, hanswered, ?_⟩
  refine run_answers_renewed counter (overtaken c) 1 (counting "t") (.bool true) "t" [.proceed 0]
    (.query (showing "t") shown .all :: List.replicate 4 (.proceed 2)) (.ok 1) hclearing rfl rfl
    ?_ ?_ 2 (showing "t") shown .all [[("n", .int 1)]] ?_ rfl hanswered
  · rw [hclients]
    rfl
  -- Nothing is on its way any more.
  · rw [hclients]
    intro s b bounds rows hmem
    exact absurd hmem (by simp)
  · rw [hclients]
    exact Nat.le_refl 2

/-- The rows that were read before an update are put into the cache after it was cleared, although
the cache is guarded, and a query that begins when the update is over finds them. -/
theorem answers_stale_rows :
    ∃ c, CachePlan.buildInMemory ⟨"t", none, true, true, none⟩ = .ok c ∧
      let changed := (overtaken c).step counter.journaled (.proceed 1)
      let ended := changed.step counter.journaled (.proceed 1)
      let t := ended.run counter.journaled
        [.query (showing "t") shown .all, .proceed 0, .proceed 2, .proceed 2]
      ended.clients[1]? = some (.update (counting "t") (.bool true) (.changed (.ok 1))) ∧
      ended.state.state = 1 ∧ ended.clients.length = 2 ∧
      t.clients[2]? =
        some (.query (showing "t") shown .all (.answered (.ok [[("n", .int 0)]]))) ∧
      ¬ t.state.HasSince changed.state.readings.length (counter.key (showing "t") shown .all)
        [[("n", .int 0)]] := by
  refine ⟨_, rfl, rfl, rfl, rfl, rfl, ?_⟩
  exact List.not_mem_nil

end Traffic
end SqlMapper
