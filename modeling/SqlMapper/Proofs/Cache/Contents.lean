import SqlMapper.Cache.Plan
import SqlMapper.Execution.Cached

/-!
What a cache over a store in memory holds. No layer changes a value or makes one up, so what holds
of every entry that is put holds of every entry that is found.
-/

namespace SqlMapper

namespace MapStore

variable (s : MapStore) (key k : CacheKey)

@[simp]
theorem get?_erase : (s.erase key).get? k = if k = key then none else s.get? k := by
  obtain ⟨id, entries⟩ := s
  unfold erase get?
  -- On the entries; each of them stays or goes on its own.
  induction entries with
  | nil => simp
  | cons e rest ih =>
    obtain ⟨k₀, v⟩ := e
    dsimp only at ih ⊢
    by_cases hgone : k₀ = key
    · rw [List.filter_cons_of_neg (by simp [hgone]), ih, List.lookup_cons]
      by_cases hk : k = key
      · rw [if_pos hk, if_pos hk]
      · have hother : (k == k₀) = false := by simpa [hgone] using hk
        rw [if_neg hk, if_neg hk, hother]
    · rw [List.filter_cons_of_pos (by simp [hgone]), List.lookup_cons, List.lookup_cons, ih]
      by_cases hk : k = k₀
      · rw [hk, beq_self_eq_true, if_neg hgone, if_neg hgone]
      · have hother : (k == k₀) = false := by simpa using hk
        rw [hother]

@[simp]
theorem get?_insert (v : Value) :
    (s.insert key v).get? k = if k = key then some v else s.get? k := by
  have hrest := s.get?_erase key k
  unfold insert get? at *
  rw [List.lookup_cons]
  by_cases hk : k = key
  · rw [if_pos hk, hk, beq_self_eq_true]
  · have hother : (k == key) = false := by simpa using hk
    rw [hother, if_neg hk]
    rw [if_neg hk] at hrest
    exact hrest

end MapStore

namespace Cache

def stored : Cache MapStore → MapStore
  | .store b => b
  | .bounded _ c | .counted _ c | .guarded _ c => c.stored

def Holds (P : CacheKey → Value → Prop) (c : Cache MapStore) : Prop :=
  ∀ k v, c.stored.get? k = some v → P k v

variable {P : CacheKey → Value → Prop} {c : Cache MapStore} {key : CacheKey}

theorem stored_release (c : Cache MapStore) (key : CacheKey) :
    (c.release key).2.stored = c.stored := by
  induction c with
  | store b => rfl
  | bounded r c ih => exact ih
  | counted t c ih => exact ih
  | guarded l c ih => rfl

theorem get?_stored_clear (c : Cache MapStore) (k : CacheKey) : c.clear.stored.get? k = none := by
  induction c with
  | store b => rfl
  | bounded r c ih => exact ih
  | counted t c ih => exact ih
  | guarded l c ih => exact ih

/-- A look at a key changes nothing that is stored, and finds nothing else. -/
theorem stored_get {found : Except Error (Option Value)} {c' : Cache MapStore}
    (h : c.get key = some (found, c')) :
    c'.stored = c.stored ∧ ∀ v, found = .ok (some v) → c.stored.get? key = some v := by
  induction c generalizing found c' with
  | store b =>
    obtain ⟨rfl, rfl⟩ := Prod.mk.inj (Option.some.inj h)
    exact ⟨rfl, fun v hv => Except.ok.inj hv⟩
  | bounded r c ih =>
    obtain ⟨⟨found₀, c₀⟩, hget, heq⟩ := Option.map_eq_some_iff.mp h
    obtain ⟨rfl, rfl⟩ := Prod.mk.inj heq
    have hinner := ih hget
    exact hinner
  | counted t c ih =>
    obtain ⟨⟨found₀, c₀⟩, hget, heq⟩ := Option.map_eq_some_iff.mp h
    obtain ⟨rfl, rfl⟩ := Prod.mk.inj heq
    have hinner := ih hget
    exact hinner
  | guarded l c ih =>
    unfold get at h
    split at h
    -- Somebody else has the key.
    · split at h
      · obtain ⟨rfl, rfl⟩ := Prod.mk.inj (Option.some.inj h)
        exact ⟨rfl, fun v hv => absurd hv (by simp)⟩
      · exact absurd h (by simp)
    · rename_i l₀ hclaim
      obtain ⟨⟨found₀, c₀⟩, hget, heq⟩ := Option.map_eq_some_iff.mp h
      obtain ⟨hstored, hfound⟩ := ih hget
      dsimp only at heq
      split at heq
      · obtain ⟨rfl, rfl⟩ := Prod.mk.inj heq
        exact ⟨hstored, fun v hv => absurd hv (by simp)⟩
      · rename_i v
        split at heq
        · obtain ⟨rfl, rfl⟩ := Prod.mk.inj heq
          exact ⟨hstored, hfound⟩
        · obtain ⟨rfl, rfl⟩ := Prod.mk.inj heq
          exact ⟨hstored, fun v hv => absurd hv (by simp)⟩
      · obtain ⟨rfl, rfl⟩ := Prod.mk.inj heq
        exact ⟨hstored, fun v hv => absurd hv (by simp)⟩

theorem Holds.clear (c : Cache MapStore) : c.clear.Holds P := by
  intro k v hv
  rw [get?_stored_clear] at hv
  exact absurd hv (by simp)

theorem Holds.of_stored {c' : Cache MapStore} (h : c.Holds P) (hstored : c'.stored = c.stored) :
    c'.Holds P := by
  unfold Holds
  rw [hstored]
  exact h

theorem Holds.remove (h : c.Holds P) (key : CacheKey) : (c.remove key).2.Holds P := by
  induction c with
  | store b =>
    intro k v hv
    have hv' : (b.erase key).get? k = some v := hv
    rw [MapStore.get?_erase] at hv'
    split at hv'
    · exact absurd hv' (by simp)
    · exact h k v hv'
  | bounded r c ih => exact ih h
  | counted t c ih => exact ih h
  | guarded l c ih => exact h

/-- Whatever the layers do with a put, they store nothing but the value that is put. -/
theorem Holds.put (h : c.Holds P) {v : Value} (hv : P key v) : (c.put key v).2.Holds P := by
  induction c with
  | store b =>
    intro k w hw
    have hw' : (b.insert key v).get? k = some w := hw
    rw [MapStore.get?_insert] at hw'
    split at hw'
    · rename_i hk
      rw [hk, ← Option.some.inj hw']
      exact hv
    · exact h k w hw'
  | bounded r c ih =>
    have hput : (c.put key v).2.Holds P := ih h
    unfold Cache.put
    rcases hstored : c.put key v with ⟨e | u, c₀⟩
    · rw [hstored] at hput
      exact hput
    -- Whatever has to go for the new key is taken out afterwards.
    · rw [hstored] at hput
      dsimp only
      rcases r.push key with ⟨_ | eldest, r₀⟩
      · exact hput
      · have hremove := Holds.remove hput eldest
        dsimp only
        rcases hgone : c₀.remove eldest with ⟨e | gone, c₁⟩
        · rw [hgone] at hremove
          exact hremove
        · rw [hgone] at hremove
          exact hremove
  | counted t c ih => exact ih h
  | guarded l c ih => exact ih h

/-- A planned cache starts empty. -/
theorem holds_of_buildInMemory {plan : CachePlan} (h : plan.buildInMemory = .ok c) :
    c.Holds P := by
  have hsurround (c₀ : Cache MapStore) : (plan.surround c₀).stored = c₀.stored := by
    unfold CachePlan.surround
    dsimp only
    split <;> split <;> rfl
  obtain ⟨r, -, rfl⟩ := CachePlan.eq_surround_of_build h
  intro k v hv
  rw [hsurround] at hv
  exact absurd hv (by simp [stored, MapStore.empty, MapStore.get?])

end Cache

def Caches.Hold (name : String) (P : CacheKey → Value → Prop) (cs : Caches MapStore) : Prop :=
  ∀ c, cs.lookup name = some c → c.Holds P

namespace Caches

open Executor

variable {name : String} {P : CacheKey → Value → Prop} {cs : Caches MapStore}

theorem Hold.insert (h : Hold name P cs) {other : String} {c : Cache MapStore}
    (hc : other = name → c.Holds P) : Hold name P (Entries.insert other c cs) := by
  intro c₀ hlookup
  rw [Entries.lookup_insert] at hlookup
  split at hlookup
  · rename_i hsame
    obtain rfl := Option.some.inj hlookup
    exact hc hsame.symm
  · exact h c₀ hlookup

/-- A cache takes the place of one that stored the same. -/
theorem Hold.replace (h : Hold name P cs) {other : String} {c c' : Cache MapStore}
    (hlookup : cs.lookup other = some c) (hstored : c'.stored = c.stored) :
    Hold name P (Entries.insert other c' cs) := by
  refine h.insert fun hname => ?_
  have hc : c.Holds P := h c (hname ▸ hlookup)
  exact hc.of_stored hstored

theorem Hold.flush (h : Hold name P cs) (s : Statement) : Hold name P (flush s cs) := by
  unfold Executor.flush
  split
  · split
    · exact h.insert fun _ => .clear _
    · exact h
  · exact h

/-- A statement that clears the cache leaves no entry that could have another property. -/
theorem hold_flush {s : Statement} (hcache : s.cache = some name) (hflush : s.flushesCache = true)
    (cs : Caches MapStore) : Hold name P (flush s cs) := by
  intro c hc
  unfold Executor.flush at hc
  rw [hcache, hflush] at hc
  dsimp only at hc
  split at hc
  · rename_i c₀ htrue hlookup
    rw [Entries.lookup_insert, if_pos rfl] at hc
    obtain rfl := Option.some.inj hc
    exact .clear c₀
  -- There is no cache of this name.
  · rename_i hnone
    exact absurd hc (hnone c rfl)

/-- Filling a cache with rows that are as they have to be keeps all of its entries so. -/
theorem Hold.fill (h : Hold name P cs) {key : CacheKey} {rows : List Row} {other : String}
    (hkey : other = name → P key (.ofRows rows)) : Hold name P (fill key rows other cs).2 := by
  unfold Executor.fill
  cases hlookup : cs.lookup other with
  | none => exact h
  | some c =>
    refine h.insert fun hname => ?_
    have hc : c.Holds P := h c (hname ▸ hlookup)
    exact hc.put (hkey hname)

theorem Hold.giveUp (h : Hold name P cs) (key : CacheKey) (other : String) :
    Hold name P (giveUp key other cs) := by
  unfold Executor.giveUp
  cases hlookup : cs.lookup other with
  | none => exact h
  | some c => exact h.replace hlookup (c.stored_release key)

theorem cacheOf?_eq_some {β : Type} [Store β] {cs : Caches β} {s : Statement} {c : Cache β}
    (h : cacheOf? s cs = some (name, c)) : s.cache = some name ∧ cs.lookup name = some c := by
  unfold cacheOf? at h
  split at h
  · rename_i name' hcache
    split at h
    · obtain ⟨c', hlookup, heq⟩ := Option.map_eq_some_iff.mp h
      obtain ⟨rfl, rfl⟩ := Prod.mk.inj heq
      exact ⟨hcache, hlookup⟩
    · exact absurd h (by simp)
  · exact absurd h (by simp)

end Caches
end SqlMapper
