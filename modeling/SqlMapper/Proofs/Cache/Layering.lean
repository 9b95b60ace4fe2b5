import SqlMapper.Proofs.Cache.Eviction
import SqlMapper.Proofs.Cache.Locked

/-!
The layers of a planned cache show nothing of themselves to a client that gives back each key it
missed before it looks for it again: it sees the answers and the entries of the bounded layer alone.
-/

namespace SqlMapper

namespace CacheCall

def isPlain : CacheCall → Bool
  | get _ | put _ _ | release _ | clear => true
  | remove _ | resize _ => false

def suits (missed : List CacheKey) : CacheCall → Bool
  | get key => key ∉ missed
  | put key _ | release key => key ∈ missed
  | remove _ | clear | resize _ => true

def missedAfter (missed : List CacheKey) (call : CacheCall) (answer : Except Error (Option Value)) :
    List CacheKey :=
  match call, answer with
  | get key, .ok none => key :: missed
  | put key _, _ | release key, _ => missed.filter (· != key)
  | _, _ => missed

end CacheCall

structure Observation where
  answer : Except Error (Option Value)
  size : Nat
  entries : List (CacheKey × Value)

namespace Cache

def observe : List CacheCall → Cache MapStore → Option (List Observation)
  | [], _ => some []
  | call :: calls, c =>
    match c.call call with
    | none => none
    | some (answer, c) =>
      (observe calls c).map (⟨answer, c.size, c.stored.entries⟩ :: ·)

/-- The calls are those of a client that gives back a key that it missed, by a value or without one,
before it looks for the key again, and gives back no other key. -/
def repays : List CacheKey → List CacheCall → Cache MapStore → Bool
  | _, [], _ => true
  | missed, call :: calls, c =>
    call.suits missed &&
      match c.call call with
      | none => true
      | some (answer, c) => repays (call.missedAfter missed answer) calls c

section Unguarded

variable {c : Cache MapStore}

/-- Without a guarded layer nothing is held that could be given back. -/
theorem release_unguarded (h : Layer.guarded ∉ c.kinds) (key : CacheKey) :
    c.release key = (.ok (), c) := by
  induction c with
  | store b => rfl
  | bounded r c ih =>
    have hinner := ih fun hmem => h (List.mem_cons_of_mem _ hmem)
    rw [release, hinner]
    rfl
  | counted t c ih =>
    have hinner := ih fun hmem => h (List.mem_cons_of_mem _ hmem)
    rw [release, hinner]
    rfl
  | guarded l c ih => exact absurd List.mem_cons_self h

theorem get_unguarded (h : Layer.guarded ∉ c.kinds) (key : CacheKey) :
    ∃ c', c.get key = some (.ok (c.stored.get? key), c') := by
  induction c with
  | store b => exact ⟨.store b, rfl⟩
  | bounded r c ih =>
    obtain ⟨c', hget⟩ := ih fun hmem => h (List.mem_cons_of_mem _ hmem)
    exact ⟨_, by rw [get, hget]; rfl⟩
  | counted t c ih =>
    obtain ⟨c', hget⟩ := ih fun hmem => h (List.mem_cons_of_mem _ hmem)
    exact ⟨_, by rw [get, hget]; rfl⟩
  | guarded l c ih => exact absurd List.mem_cons_self h

theorem remove_unguarded (h : Layer.guarded ∉ c.kinds) (key : CacheKey) :
    ∃ c', c.remove key = (.ok (c.stored.get? key), c') := by
  induction c with
  | store b => exact ⟨_, rfl⟩
  | bounded r c ih =>
    obtain ⟨c', hremove⟩ := ih fun hmem => h (List.mem_cons_of_mem _ hmem)
    exact ⟨_, by rw [remove, hremove]; rfl⟩
  | counted t c ih =>
    obtain ⟨c', hremove⟩ := ih fun hmem => h (List.mem_cons_of_mem _ hmem)
    exact ⟨_, by rw [remove, hremove]; rfl⟩
  | guarded l c ih => exact absurd List.mem_cons_self h

/-- Without a guarded layer no put waits or fails over a store in memory. -/
theorem put_unguarded (h : Layer.guarded ∉ c.kinds) (key : CacheKey) (v : Value) :
    ∃ c', c.put key v = (.ok (), c') := by
  induction c with
  | store b => exact ⟨_, rfl⟩
  | bounded r c ih =>
    have hinside : Layer.guarded ∉ c.kinds := fun hmem => h (List.mem_cons_of_mem _ hmem)
    obtain ⟨c₁, hput⟩ := ih hinside
    have hinside₁ : Layer.guarded ∉ c₁.kinds := by
      have hkinds := kinds_put c key v
      rw [hput] at hkinds
      rwa [hkinds]
    rw [put, hput]
    dsimp only
    rcases r.push key with ⟨_ | eldest, r'⟩
    · exact ⟨_, rfl⟩
    · obtain ⟨c₂, hremove⟩ := remove_unguarded hinside₁ eldest
      dsimp only
      rw [hremove]
      exact ⟨_, rfl⟩
  | counted t c ih =>
    obtain ⟨c', hput⟩ := ih fun hmem => h (List.mem_cons_of_mem _ hmem)
    exact ⟨_, by rw [put, hput]; rfl⟩
  | guarded l c ih => exact absurd List.mem_cons_self h

/-- Without a guarded layer over a store in memory every call succeeds. -/
theorem call_unguarded (h : Layer.guarded ∉ c.kinds) {call : CacheCall} (hplain : call.isPlain) :
    ∃ found c', c.call call = some (.ok found, c') ∧ Layer.guarded ∉ c'.kinds := by
  cases call with
  | get key =>
    obtain ⟨c', hget⟩ := get_unguarded h key
    exact ⟨_, c', hget, by rwa [kinds_get hget]⟩
  | put key v =>
    obtain ⟨c', hput⟩ := put_unguarded h key v
    have hkinds := kinds_put c key v
    rw [hput] at hkinds
    exact ⟨none, c', by rw [Cache.call, hput]; rfl, by rwa [hkinds]⟩
  | release key =>
    refine ⟨none, c, ?_, h⟩
    rw [Cache.call, release_unguarded h]
    rfl
  | clear => exact ⟨none, c.clear, rfl, by rwa [kinds_clear]⟩
  | remove key => exact absurd hplain Bool.false_ne_true
  | resize size => exact absurd hplain Bool.false_ne_true

end Unguarded

end Cache

namespace Locks

variable {l : Locks} {key : CacheKey}

theorem claim_of_notMem (h : key ∉ l.keys) : ∃ l', l.claim key = (.taken, l') := by
  have hnone : l.held.lookup key = none := by
    refine List.lookup_eq_none_iff.mpr fun e he => ?_
    have hne : key ≠ e.1 := fun heq => h (heq ▸ List.mem_map_of_mem he)
    simpa using hne
  rw [claim, hnone]
  exact ⟨_, rfl⟩

theorem release_of_mem (h : key ∈ l.keys) : ∃ l', l.release key = (.ok (), l') := by
  obtain ⟨e, he, rfl⟩ := List.mem_map.mp h
  have hsome : ∃ latch, l.held.lookup e.1 = some latch := by
    rw [← Option.ne_none_iff_exists']
    intro hnone
    exact absurd (List.lookup_eq_none_iff.mp hnone e he) (by simp)
  obtain ⟨latch, hlatch⟩ := hsome
  rw [release, withdraw, hlatch]
  exact ⟨_, rfl⟩

end Locks

namespace Cache

section Layers

variable {c c' : Cache MapStore} {call : CacheCall} {answer : Except Error (Option Value)}
  {found : Option Value}

/-- A counted layer counts, and passes every call on. -/
theorem call_counted (hplain : call.isPlain) (h : c.call call = some (answer, c')) (t : Tally) :
    ∃ t', (Cache.counted t c).call call = some (answer, .counted t' c') := by
  cases call with
  | get key =>
    have hget : c.get key = some (answer, c') := h
    exact ⟨_, by rw [Cache.call, get, hget]; rfl⟩
  | put key v =>
    obtain ⟨rfl, rfl⟩ := Prod.mk.inj (Option.some.inj h)
    exact ⟨t, rfl⟩
  | release key =>
    obtain ⟨rfl, rfl⟩ := Prod.mk.inj (Option.some.inj h)
    exact ⟨t, rfl⟩
  | clear =>
    obtain ⟨rfl, rfl⟩ := Prod.mk.inj (Option.some.inj h)
    exact ⟨t, rfl⟩
  | remove key => exact absurd hplain Bool.false_ne_true
  | resize size => exact absurd hplain Bool.false_ne_true

/-- A guarded layer passes a call on that suits the locked keys, and has then those locked that are
missed and not given back. -/
theorem call_guarded (hinside : Layer.guarded ∉ c.kinds) (hplain : call.isPlain)
    (h : c.call call = some (.ok found, c')) {l : Locks} (hsuits : call.suits l.keys) :
    ∃ l', (Cache.guarded l c).call call = some (.ok found, .guarded l' c') ∧
      l'.keys = call.missedAfter l.keys (.ok found) := by
  cases call with
  | get key =>
    have hget : c.get key = some (.ok found, c') := h
    have hfree : key ∉ l.keys := of_decide_eq_true hsuits
    obtain ⟨l₁, hclaim⟩ := Locks.claim_of_notMem hfree
    have hkeys : l₁.keys = key :: l.keys := (Locks.keys_claim hclaim).2
    rw [Cache.call, get, hclaim]
    dsimp only
    rw [hget]
    cases found with
    | none => exact ⟨l₁, rfl, hkeys⟩
    -- What was found is not missed: its key is given back at once.
    | some v =>
      have hlocked : key ∈ l₁.keys := hkeys ▸ List.mem_cons_self
      obtain ⟨l₂, hrelease⟩ := Locks.release_of_mem hlocked
      have hkeys₂ : l₂.keys = l₁.keys.filter (· != key) := by
        rw [← Locks.keys_release, hrelease]
      refine ⟨l₂, ?_, ?_⟩
      · rw [Option.map_some]
        dsimp only
        rw [hrelease]
      · rw [hkeys₂, hkeys, List.filter_cons_of_neg (by simp),
          Locks.filter_eq_self_of_notMem hfree]
        rfl
  | put key v =>
    obtain ⟨hstored, rfl⟩ := Prod.mk.inj (Option.some.inj h)
    obtain ⟨c₁, hput⟩ := put_unguarded hinside key v
    obtain ⟨l', hrelease⟩ := Locks.release_of_mem (of_decide_eq_true hsuits)
    rw [hput] at hstored ⊢
    refine ⟨l', ?_, ?_⟩
    · rw [Cache.call, put, hput]
      dsimp only
      rw [hrelease, ← hstored]
      rfl
    · rw [CacheCall.missedAfter, ← Locks.keys_release, hrelease]
  | release key =>
    obtain ⟨hreleased, rfl⟩ := Prod.mk.inj (Option.some.inj h)
    obtain ⟨l', hrelease⟩ := Locks.release_of_mem (of_decide_eq_true hsuits)
    rw [release_unguarded hinside] at hreleased ⊢
    refine ⟨l', ?_, ?_⟩
    · rw [Cache.call, release, hrelease, ← hreleased]
      rfl
    · rw [CacheCall.missedAfter, ← Locks.keys_release, hrelease]
  | clear =>
    obtain ⟨hcleared, rfl⟩ := Prod.mk.inj (Option.some.inj h)
    exact ⟨l, by rw [← hcleared]; rfl, rfl⟩
  | remove key => exact absurd hplain Bool.false_ne_true
  | resize size => exact absurd hplain Bool.false_ne_true

end Layers

theorem size_eq (c : Cache MapStore) : c.size = c.stored.entries.length := by
  induction c with
  | store b => rfl
  | bounded r c ih => exact ih
  | counted t c ih => exact ih
  | guarded l c ih => exact ih

inductive Counts (c : Cache MapStore) : Cache MapStore → Prop where
  | not : Counts c c
  | counted (t : Tally) : Counts c (.counted t c)

/-- A cache with a counted layer around it, or without, and around that a guarded layer, or none.
The calls are those of a client that has missed the keys that are locked there. -/
inductive Covers (calls : List CacheCall) (c : Cache MapStore) : Cache MapStore → Prop where
  | unguarded {c' : Cache MapStore} (hcounts : Counts c c') : Covers calls c c'
  | guarded {c' : Cache MapStore} {l : Locks} (hcounts : Counts c c')
      (hrepays : repays l.keys calls (.guarded l c')) : Covers calls c (.guarded l c')

namespace Counts

variable {c c₁ c' : Cache MapStore}

theorem stored_eq (h : Counts c c') : c'.stored = c.stored := by
  cases h with
  | not => rfl
  | counted t => rfl

theorem unguarded (h : Counts c c') (hinside : Layer.guarded ∉ c.kinds) :
    Layer.guarded ∉ c'.kinds := by
  cases h with
  | not => exact hinside
  | counted t => exact List.not_mem_cons_of_ne_of_not_mem nofun hinside

theorem passes (h : Counts c c') {call : CacheCall} {answer : Except Error (Option Value)}
    (hplain : call.isPlain) (hcall : c.call call = some (answer, c₁)) :
    ∃ c₁', c'.call call = some (answer, c₁') ∧ Counts c₁ c₁' := by
  cases h with
  | not => exact ⟨c₁, hcall, .not⟩
  | counted t =>
    obtain ⟨t', hcounted⟩ := call_counted hplain hcall t
    exact ⟨_, hcounted, .counted t'⟩

end Counts

namespace Covers

variable {call : CacheCall} {calls : List CacheCall} {c c' : Cache MapStore}

theorem stored_eq (h : Covers calls c c') : c'.stored = c.stored := by
  cases h with
  | unguarded hcounts => exact hcounts.stored_eq
  | guarded hcounts hrepays => exact hcounts.stored_eq

/-- A call goes through the layers as it goes without them, and succeeds. -/
theorem passes (h : Covers (call :: calls) c c') (hinside : Layer.guarded ∉ c.kinds)
    (hplain : call.isPlain) :
    ∃ found c₁ c₁', c.call call = some (.ok found, c₁) ∧ c'.call call = some (.ok found, c₁') ∧
      Layer.guarded ∉ c₁.kinds ∧ Covers calls c₁ c₁' := by
  obtain ⟨found, c₁, hcall, hinside₁⟩ := call_unguarded hinside hplain
  cases h with
  | unguarded hcounts =>
    obtain ⟨c₁', hcall', hcounts₁⟩ := hcounts.passes hplain hcall
    exact ⟨found, c₁, c₁', hcall, hcall', hinside₁, .unguarded hcounts₁⟩
  | guarded hcounts hrepays =>
    obtain ⟨c₁', hcall', hcounts₁⟩ := hcounts.passes hplain hcall
    rw [repays, Bool.and_eq_true] at hrepays
    obtain ⟨hsuits, hlater⟩ := hrepays
    obtain ⟨l', hguarded, hkeys⟩ :=
      call_guarded (hcounts.unguarded hinside) hplain hcall' hsuits
    rw [hguarded] at hlater
    dsimp only at hlater
    rw [← hkeys] at hlater
    exact ⟨found, c₁, _, hcall, hguarded, hinside₁, .guarded hcounts₁ hlater⟩

/-- Of calls the same is seen through the layers as without them. -/
theorem observe (h : Covers calls c c') (hinside : Layer.guarded ∉ c.kinds)
    (hplain : ∀ call ∈ calls, call.isPlain) :
    ∃ seen, c'.observe calls = some seen ∧ c.observe calls = some seen ∧
      ∀ o ∈ seen, ∃ found, o.answer = .ok found := by
  -- On the calls, for any two caches of which one covers the other.
  induction calls generalizing c c' with
  | nil => exact ⟨[], rfl, rfl, nofun⟩
  | cons call calls ih =>
    obtain ⟨hfirst, hothers⟩ := List.forall_mem_cons.mp hplain
    obtain ⟨found, c₁, c₁', hcall, hcall', hinside₁, hcovers⟩ := h.passes hinside hfirst
    obtain ⟨seen, hseen', hseen, hok⟩ := ih hcovers hinside₁ hothers
    have hsize : c₁'.size = c₁.size := by rw [size_eq, size_eq, hcovers.stored_eq]
    refine ⟨⟨.ok found, c₁.size, c₁.stored.entries⟩ :: seen, ?_, ?_, ?_⟩
    · rw [Cache.observe, hcall']
      dsimp only
      rw [hseen', hsize, hcovers.stored_eq]
      rfl
    · rw [Cache.observe, hcall]
      dsimp only
      rw [hseen]
      rfl
    · exact List.forall_mem_cons.mpr ⟨⟨found, rfl⟩, hok⟩

end Covers

/-- The counted and the guarded layer of a plan, which starts with nothing locked. -/
theorem covers_surround {plan : CachePlan} {c : Cache MapStore} {calls : List CacheCall}
    (hrepays : plan.guarded = true → (plan.surround c).repays [] calls) :
    Covers calls c (plan.surround c) := by
  have hcounts : Counts c (if plan.counted = true then .counted ⟨0, 0⟩ c else c) := by
    split
    · exact .counted ⟨0, 0⟩
    · exact .not
  unfold CachePlan.surround at hrepays ⊢
  dsimp only at hrepays ⊢
  by_cases hguarded : plan.guarded = true
  · rw [if_pos hguarded] at hrepays ⊢
    exact .guarded hcounts (hrepays hguarded)
  · rw [if_neg hguarded]
    exact .unguarded hcounts

/-- The layers of a planned cache show nothing of themselves. Of looks, puts, releases and clearings
the same is seen of the cache that a plan builds as of a bounded layer alone over a store in memory:
the same answers, none of them an error, and after each call the same entries in the same number. If
the cache is guarded, this is so for a client that gives back a key that it missed, and no other,
before it looks for it again. On a bounded layer alone a release does nothing. -/
theorem observe_buildInMemory {plan : CachePlan} {c : Cache MapStore}
    (hbuild : plan.buildInMemory = .ok c) {calls : List CacheCall}
    (hplain : ∀ call ∈ calls, call.isPlain)
    (hrepays : plan.guarded = true → c.repays [] calls) :
    ∃ r seen, plan.recency = .ok r ∧
      c.observe calls = some seen ∧
      (Cache.bounded r (.store (MapStore.empty plan.id))).observe calls = some seen ∧
      (∀ o ∈ seen, ∃ found, o.answer = .ok found) ∧
      ∀ (r : Recency CacheKey) (s : MapStore) key,
        (Cache.bounded r (.store s)).release key = (.ok (), .bounded r (.store s)) := by
  obtain ⟨r, hrecency, rfl⟩ := CachePlan.eq_surround_of_build hbuild
  have hinside : Layer.guarded ∉ (Cache.bounded r (.store (MapStore.empty plan.id))).kinds := by
    simp [kinds]
  obtain ⟨seen, hseen, hbare, hok⟩ := (covers_surround hrepays).observe hinside hplain
  exact ⟨r, seen, hrecency, hseen, hbare, hok, fun _ _ _ => rfl⟩

/-- A client that misses a key, clears the cache, puts the key and finds it, and misses another one,
gives it back, and misses it again. -/
theorem observe_clearing_client :
    let plan : CachePlan := ⟨"t", some 1, true, true, none⟩
    let key (n : Int64) : CacheKey := ⟨[.int n]⟩
    let calls : List CacheCall := [.get (key 1), .clear, .put (key 1) .null, .get (key 1),
      .get (key 2), .release (key 2), .get (key 2)]
    ∃ c r seen, plan.buildInMemory = .ok c ∧ (∀ call ∈ calls, call.isPlain) ∧
      (plan.guarded = true → c.repays [] calls) ∧ plan.recency = .ok r ∧
      c.observe calls = some seen ∧
      (Cache.bounded r (.store (MapStore.empty plan.id))).observe calls = some seen ∧
      (∀ o ∈ seen, ∃ found, o.answer = .ok found) := by
  intro plan key calls
  obtain ⟨c, hbuild⟩ : ∃ c, plan.buildInMemory = .ok c := ⟨_, rfl⟩
  have hplain : ∀ call ∈ calls, call.isPlain := by decide
  have hrepays : c.repays [] calls := by
    obtain rfl := Except.ok.inj hbuild
    rfl
  obtain ⟨r, seen, hrecency, hseen, hbare, hok, -⟩ :=
    observe_buildInMemory hbuild hplain fun _ => hrepays
  exact ⟨c, r, seen, hbuild, hplain, fun _ => hrepays, hrecency, hseen, hbare, hok⟩

end Cache
end SqlMapper
