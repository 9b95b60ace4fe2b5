import SqlMapper.Proofs.Cache.Contents

/-!
Which keys a cache has locked. Only a guarded layer locks keys, and a plan puts it outermost, so
what the layers below do, and how they fail, makes no difference.
-/

namespace SqlMapper

inductive Layer where
  | bounded
  | counted
  | guarded
  deriving DecidableEq

namespace Locks

def keys (l : Locks) : List CacheKey := l.held.map (·.1)

variable {l : Locks} {key : CacheKey}

theorem keys_release : (l.release key).2.keys = l.keys.filter (· != key) := by
  have hwithdrawn : (l.withdraw key).2.keys = l.keys.filter (· != key) := by
    unfold keys withdraw
    rw [List.filter_map]
    rfl
  unfold release
  rw [← hwithdrawn]
  rcases l.withdraw key with ⟨_ | latch, l'⟩
  · rfl
  · rfl

theorem keys_claim {l' : Locks} (h : l.claim key = (.taken, l')) :
    key ∉ l.keys ∧ l'.keys = key :: l.keys := by
  unfold claim at h
  split at h
  · exact absurd h (by simp)
  rename_i hfree
  obtain ⟨-, rfl⟩ := Prod.mk.inj h
  refine ⟨fun hmem => ?_, rfl⟩
  obtain ⟨e, he, rfl⟩ := List.mem_map.mp hmem
  exact absurd (List.lookup_eq_none_iff.mp hfree e he) (by simp)

theorem eq_of_claim_busy {l' : Locks} {latch : Nat} (h : l.claim key = (.busy latch, l')) :
    l' = l := by
  unfold claim at h
  split at h
  · exact (Prod.mk.inj h).2.symm
  · exact absurd h (by simp)

theorem filter_eq_self_of_notMem {keys : List CacheKey} (h : key ∉ keys) :
    keys.filter (· != key) = keys := by
  refine List.filter_eq_self.mpr fun k hk => ?_
  exact bne_iff_ne.mpr (ne_of_mem_of_not_mem hk h)

end Locks

namespace Cache

variable {β : Type}

def kinds : Cache β → List Layer
  | .store _ => []
  | .bounded _ c => .bounded :: c.kinds
  | .counted _ c => .counted :: c.kinds
  | .guarded _ c => .guarded :: c.kinds

def locked : Cache β → List CacheKey
  | .store _ => []
  | .bounded _ c | .counted _ c => c.locked
  | .guarded l c => l.keys ++ c.locked

/-- The cache has the layers that some plan builds, in whatever state they and the store are. -/
def IsPlanned [Store β] (c : Cache β) : Prop :=
  ∃ (plan : CachePlan) (base : β) (built : Cache β),
    plan.build base = .ok built ∧ c.kinds = built.kinds

theorem locked_eq_nil {c : Cache β} (h : Layer.guarded ∉ c.kinds) : c.locked = [] := by
  induction c with
  | store b => rfl
  | bounded r c ih => exact ih fun hmem => h (List.mem_cons_of_mem _ hmem)
  | counted t c ih => exact ih fun hmem => h (List.mem_cons_of_mem _ hmem)
  | guarded l c ih => exact absurd List.mem_cons_self h

theorem locked_guarded {c : Cache β} (h : Layer.guarded ∉ c.kinds) (l : Locks) :
    (Cache.guarded l c).locked = l.keys := by
  rw [locked, locked_eq_nil h, List.append_nil]

variable [Store β]

/-- What a bounded layer leaves below it after a value was put there: what has to go for the new key
is taken out, if the value could be stored. -/
theorem put_bounded (key : CacheKey) (v : Value) (r : Recency CacheKey) (c : Cache β) : ∃ r' c',
    ((Cache.bounded r c).put key v).2 = .bounded r' c' ∧
      (c' = (c.put key v).2 ∨ ∃ eldest, c' = ((c.put key v).2.remove eldest).2) := by
  rw [put]
  rcases c.put key v with ⟨e | u, c₁⟩
  · exact ⟨r, c₁, rfl, .inl rfl⟩
  dsimp only
  rcases r.push key with ⟨_ | eldest, r₁⟩
  · exact ⟨r₁, c₁, rfl, .inl rfl⟩
  dsimp only
  rcases hremove : c₁.remove eldest with ⟨e | gone, c₂⟩
  · exact ⟨r₁, c₂, rfl, .inr ⟨eldest, by rw [hremove]⟩⟩
  · exact ⟨r₁, c₂, rfl, .inr ⟨eldest, by rw [hremove]⟩⟩

/-- What a guarded layer leaves after a look: below it the look may not have come, if the key was
locked already; and the key is locked then, and was not before, if nothing was found. -/
theorem get_guarded {l : Locks} {key : CacheKey} {c c' : Cache β}
    {found : Except Error (Option Value)}
    (h : (Cache.guarded l c).get key = some (found, c')) : ∃ l' c₁, c' = .guarded l' c₁ ∧
      (c₁ = c ∨ ∃ found₁, c.get key = some (found₁, c₁)) ∧
      (found = .ok none ∧ key ∉ l.keys ∧ l'.keys = key :: l.keys ∨
        found ≠ .ok none ∧ l'.keys = l.keys) := by
  have hfailed (e : Error) : (Except.error e : Except Error (Option Value)) ≠ .ok none := by simp
  rw [get] at h
  split at h
  -- The key was locked already. Waiting for it alone ends only when the time is up.
  · split at h
    · rename_i latch l₀ hbusy hbounded
      obtain ⟨rfl, rfl⟩ := Prod.mk.inj (Option.some.inj h)
      obtain rfl := Locks.eq_of_claim_busy hbusy
      exact ⟨l₀, c, rfl, .inl rfl, .inr ⟨hfailed _, rfl⟩⟩
    · exact absurd h (by simp)
  rename_i l₀ hclaim
  obtain ⟨hfree, hkeys⟩ := Locks.keys_claim hclaim
  obtain ⟨⟨found₁, c₁⟩, hget, heq⟩ := Option.map_eq_some_iff.mp h
  -- Every answer but an empty one gives the key back at once.
  have hreleased : (l₀.release key).2.keys = l.keys := by
    rw [Locks.keys_release, hkeys, List.filter_cons_of_neg (by simp),
      Locks.filter_eq_self_of_notMem hfree]
  dsimp only at heq
  split at heq
  · obtain ⟨rfl, rfl⟩ := Prod.mk.inj heq
    exact ⟨l₀, c₁, rfl, .inr ⟨_, hget⟩, .inl ⟨rfl, hfree, hkeys⟩⟩
  · split at heq
    · rename_i l₁ hrelease
      obtain ⟨rfl, rfl⟩ := Prod.mk.inj heq
      rw [hrelease] at hreleased
      exact ⟨l₁, c₁, rfl, .inr ⟨_, hget⟩, .inr ⟨by simp, hreleased⟩⟩
    · rename_i e l₁ hrelease
      obtain ⟨rfl, rfl⟩ := Prod.mk.inj heq
      rw [hrelease] at hreleased
      exact ⟨l₁, c₁, rfl, .inr ⟨_, hget⟩, .inr ⟨hfailed e, hreleased⟩⟩
  · obtain ⟨rfl, rfl⟩ := Prod.mk.inj heq
    exact ⟨_, c₁, rfl, .inr ⟨_, hget⟩, .inr ⟨hfailed _, hreleased⟩⟩

section Kinds

variable (c : Cache β) (key : CacheKey)

@[simp]
theorem kinds_clear : c.clear.kinds = c.kinds := by
  induction c with
  | store b => rfl
  | bounded r c ih => rw [clear, kinds, kinds, ih]
  | counted t c ih => rw [clear, kinds, kinds, ih]
  | guarded l c ih => rw [clear, kinds, kinds, ih]

@[simp]
theorem kinds_release : (c.release key).2.kinds = c.kinds := by
  induction c with
  | store b => rfl
  | bounded r c ih => exact congrArg (Layer.bounded :: ·) ih
  | counted t c ih => exact congrArg (Layer.counted :: ·) ih
  | guarded l c ih => rfl

@[simp]
theorem kinds_remove : (c.remove key).2.kinds = c.kinds := by
  induction c with
  | store b => rfl
  | bounded r c ih => exact congrArg (Layer.bounded :: ·) ih
  | counted t c ih => exact congrArg (Layer.counted :: ·) ih
  | guarded l c ih => rfl

@[simp]
theorem kinds_put (v : Value) : (c.put key v).2.kinds = c.kinds := by
  induction c with
  | store b => rfl
  | bounded r c ih =>
    obtain ⟨r', c', hput, hc⟩ := put_bounded key v r c
    rw [hput]
    refine congrArg (Layer.bounded :: ·) ?_
    rcases hc with rfl | ⟨eldest, rfl⟩
    · exact ih
    · rw [kinds_remove, ih]
  | counted t c ih => exact congrArg (Layer.counted :: ·) ih
  | guarded l c ih => exact congrArg (Layer.guarded :: ·) ih

variable {c key}

theorem kinds_get {c' : Cache β} {found : Except Error (Option Value)}
    (h : c.get key = some (found, c')) : c'.kinds = c.kinds := by
  induction c generalizing found c' with
  | store b =>
    obtain ⟨rfl, rfl⟩ := Prod.mk.inj (Option.some.inj h)
    rfl
  | bounded r c ih =>
    obtain ⟨⟨found₀, c₀⟩, hget, heq⟩ := Option.map_eq_some_iff.mp h
    obtain ⟨rfl, rfl⟩ := Prod.mk.inj heq
    exact congrArg (Layer.bounded :: ·) (ih hget)
  | counted t c ih =>
    obtain ⟨⟨found₀, c₀⟩, hget, heq⟩ := Option.map_eq_some_iff.mp h
    obtain ⟨rfl, rfl⟩ := Prod.mk.inj heq
    exact congrArg (Layer.counted :: ·) (ih hget)
  | guarded l c ih =>
    obtain ⟨l', c₁, rfl, hinner, -⟩ := get_guarded h
    refine congrArg (Layer.guarded :: ·) ?_
    rcases hinner with rfl | ⟨found₁, hget⟩
    · rfl
    · exact ih hget

end Kinds

section Locked

variable {c : Cache β} {key : CacheKey}

theorem IsPlanned.of_kinds (h : c.IsPlanned) {c' : Cache β} (hkinds : c'.kinds = c.kinds) :
    c'.IsPlanned := by
  obtain ⟨plan, base, built, hbuild, hbuilt⟩ := h
  exact ⟨plan, base, built, hbuild, hkinds.trans hbuilt⟩

/-- The outermost layer of a planned cache is its guarded one, if it has one. -/
theorem IsPlanned.guarded_outside (h : c.IsPlanned) :
    (∃ l inner, c = .guarded l inner ∧ Layer.guarded ∉ inner.kinds) ∨
      Layer.guarded ∉ c.kinds := by
  obtain ⟨plan, base, built, hbuild, hkinds⟩ := h
  -- A plan puts a bounded layer around the store, then the counted one, and the guarded one last.
  have htail : Layer.guarded ∉ c.kinds.tail := by
    obtain ⟨r, -, rfl⟩ := CachePlan.eq_surround_of_build hbuild
    rw [hkinds]
    unfold CachePlan.surround
    cases plan.counted <;> cases plan.guarded <;> simp [kinds]
  cases c with
  | store b => exact .inr List.not_mem_nil
  | bounded r c => exact .inr (List.not_mem_cons_of_ne_of_not_mem nofun htail)
  | counted t c => exact .inr (List.not_mem_cons_of_ne_of_not_mem nofun htail)
  | guarded l c => exact .inl ⟨l, c, rfl, htail⟩

theorem locked_clear (c : Cache β) : c.clear.locked = c.locked := by
  induction c with
  | store b => rfl
  | bounded r c ih => exact ih
  | counted t c ih => exact ih
  | guarded l c ih => exact congrArg (l.keys ++ ·) ih

theorem IsPlanned.locked_release (h : c.IsPlanned) :
    (c.release key).2.locked = c.locked.filter (· != key) := by
  rcases h.guarded_outside with ⟨l, inner, rfl, hinner⟩ | hnone
  · rw [locked_guarded hinner, ← Locks.keys_release]
    exact locked_guarded hinner _
  · rw [locked_eq_nil hnone, locked_eq_nil (by rwa [kinds_release]), List.filter_nil]

theorem IsPlanned.locked_put (h : c.IsPlanned) (v : Value) :
    (c.put key v).2.locked = c.locked.filter (· != key) := by
  rcases h.guarded_outside with ⟨l, inner, rfl, hinner⟩ | hnone
  -- The key is given back whether the value could be stored below or not.
  · rw [locked_guarded hinner, ← Locks.keys_release]
    exact locked_guarded (by rwa [kinds_put]) _
  · rw [locked_eq_nil hnone, locked_eq_nil (by rwa [kinds_put]), List.filter_nil]

/-- A look locks its key if it finds nothing, and otherwise nothing. -/
theorem IsPlanned.locked_get (h : c.IsPlanned) {c' : Cache β}
    {found : Except Error (Option Value)} (hget : c.get key = some (found, c')) :
    found = .ok none ∧ c'.locked.filter (· != key) = c.locked ∨
      found ≠ .ok none ∧ c'.locked = c.locked := by
  have hkinds : c'.kinds = c.kinds := kinds_get hget
  rcases h.guarded_outside with ⟨l, inner, rfl, hinner⟩ | hnone
  · obtain ⟨l', inner', rfl, -, hkeys⟩ := get_guarded hget
    have hinner' : Layer.guarded ∉ inner'.kinds := (List.cons.inj hkinds).2 ▸ hinner
    rw [locked_guarded hinner, locked_guarded hinner']
    rcases hkeys with ⟨hfound, hfree, hlocked⟩ | ⟨hfound, hsame⟩
    · refine .inl ⟨hfound, ?_⟩
      rw [hlocked, List.filter_cons_of_neg (by simp), Locks.filter_eq_self_of_notMem hfree]
    · exact .inr ⟨hfound, hsame⟩
  · rw [locked_eq_nil hnone, locked_eq_nil (hkinds ▸ hnone)]
    by_cases hfound : found = .ok none
    · exact .inl ⟨hfound, rfl⟩
    · exact .inr ⟨hfound, rfl⟩

/-- After a look that found nothing, giving its key back leaves what was locked before. -/
theorem IsPlanned.missed (h : c.IsPlanned) {c' : Cache β}
    (hget : c.get key = some (.ok none, c')) :
    c'.IsPlanned ∧ c'.locked.filter (· != key) = c.locked := by
  refine ⟨h.of_kinds (kinds_get hget), ?_⟩
  rcases h.locked_get hget with ⟨-, hlocked⟩ | ⟨hfound, -⟩
  · exact hlocked
  · exact absurd rfl hfound

end Locked

end Cache

namespace Caches

open Executor

variable {β : Type}

def SameLocks (cs cs' : Caches β) : Prop :=
  ∀ name, (cs'.lookup name).map Cache.locked = (cs.lookup name).map Cache.locked

def ArePlanned [Store β] (cs : Caches β) : Prop := ∀ name c, cs.lookup name = some c → c.IsPlanned

variable {cs cs' : Caches β} {name : String} {c c' : Cache β}

theorem SameLocks.refl (cs : Caches β) : cs.SameLocks cs := fun _ => rfl

theorem SameLocks.trans {cs'' : Caches β} (h : cs.SameLocks cs') (h' : cs'.SameLocks cs'') :
    cs.SameLocks cs'' :=
  fun name => (h' name).trans (h name)

theorem SameLocks.insert (hc : cs.lookup name = some c) (hlocked : c'.locked = c.locked) :
    cs.SameLocks (Entries.insert name c' cs) := by
  intro other
  rw [Entries.lookup_insert]
  split
  · rename_i hsame
    rw [hsame, hc, Option.map_some, Option.map_some, hlocked]
  · rfl

variable [Store β]

/-- Flushing clears at most one cache. -/
theorem flush_cases (s : Statement) (cs : Caches β) : flush s cs = cs ∨
    ∃ name c, cs.lookup name = some c ∧ flush s cs = Entries.insert name c.clear cs := by
  unfold flush
  split
  · rename_i name hcache
    split
    · rename_i c hflush hc
      exact .inr ⟨name, c, hc, rfl⟩
    · exact .inl rfl
  · exact .inl rfl

theorem SameLocks.flush (cs : Caches β) (s : Statement) : cs.SameLocks (flush s cs) := by
  rcases flush_cases s cs with hsame | ⟨name, c, hc, hflush⟩
  · rw [hsame]
    exact .refl cs
  · rw [hflush]
    exact .insert hc (Cache.locked_clear c)

theorem ArePlanned.flush (h : cs.ArePlanned) (s : Statement) : (flush s cs).ArePlanned := by
  rcases flush_cases s cs with hsame | ⟨name, c, hc, hflush⟩
  · rw [hsame]
    exact h
  · rw [hflush]
    intro other c₀ hc₀
    rw [Entries.lookup_insert] at hc₀
    split at hc₀
    · obtain rfl := Option.some.inj hc₀
      exact (h name c hc).of_kinds (Cache.kinds_clear c)
    · exact h other c₀ hc₀

omit [Store β] in
theorem SameLocks.insert_insert (hc : cs.lookup name = some c) {c'' : Cache β}
    (hlocked : c''.locked = c.locked) :
    cs.SameLocks (Entries.insert name c'' (Entries.insert name c' cs)) := by
  intro other
  rw [Entries.lookup_insert, Entries.lookup_insert]
  split
  · rename_i hsame
    rw [hsame, hc, Option.map_some, Option.map_some, hlocked]
  · rfl

section

variable {key : CacheKey} (hc : cs.lookup name = some c) (hplanned : c.IsPlanned)
  (hget : c.get key = some (.ok none, c'))

include hc hplanned hget

theorem SameLocks.giveUp : cs.SameLocks (giveUp key name (Entries.insert name c' cs)) := by
  obtain ⟨hplanned', hlocked⟩ := hplanned.missed hget
  unfold Executor.giveUp
  rw [Entries.lookup_insert, if_pos rfl]
  refine insert_insert hc ?_
  rw [hplanned'.locked_release, hlocked]

theorem SameLocks.fill (rows : List Row) :
    cs.SameLocks (fill key rows name (Entries.insert name c' cs)).2 := by
  obtain ⟨hplanned', hlocked⟩ := hplanned.missed hget
  unfold Executor.fill
  rw [Entries.lookup_insert, if_pos rfl]
  refine insert_insert hc ?_
  rw [hplanned'.locked_put, hlocked]

end

end Caches
end SqlMapper
