import Mathlib.Data.List.Induction
import SqlMapper.Cache.Faulty
import SqlMapper.Proofs.Cache.Tracking

/-!
A bounded cache over a store whose operations may fail. A removal or an eviction forgets the key
first and erases it then; if the store fails in between, the key is stored and not tracked.
-/

namespace SqlMapper

inductive FaultyCall.Request where
  | put (key : CacheKey) (v : Value)
  | get (key : CacheKey)
  | remove (key : CacheKey)
  | clear

def FaultyCall.Request.call : Request → CacheCall
  | put key v => .put key v
  | get key => .get key
  | remove key => .remove key
  | clear => .clear

structure FaultyCall where
  fails : StoreOp → Bool
  request : FaultyCall.Request

namespace FaultyCall

def on (x : FaultyCall) (c : Cache FaultyStore) :
    Option (Cache.Outcome FaultyStore (Option Value)) :=
  (c.changeStore fun s => { s with fails := x.fails }).call x.request.call

def onAll (calls : List FaultyCall) (c : Cache FaultyStore) : Option (Cache FaultyStore) :=
  calls.foldlM (fun c x => (x.on c).map (·.2)) c

def track (r : Recency CacheKey) (x : FaultyCall) : Recency CacheKey :=
  match x.request with
  | .put key _ => if x.fails .put then r else (r.push key).2
  | .get key => r.touch key
  | .remove key => r.forget key
  | .clear => r.clear

def trackAll (calls : List FaultyCall) (r : Recency CacheKey) : Recency CacheKey :=
  calls.foldl track r

/-- The key that a call lost: it was tracked, is tracked no longer, and the store failed to take it
out. -/
def lost? (x : FaultyCall) (r : Recency CacheKey) : Option CacheKey :=
  match x.request with
  | .put key _ => if !x.fails .put && x.fails .remove then (r.push key).1 else none
  | .remove key => if key ∈ r.keys ∧ x.fails .remove then some key else none
  | .get _ | .clear => none

def lostAll (r : Recency CacheKey) : List FaultyCall → List CacheKey
  | [] => []
  | x :: calls => (x.lost? r).toList ++ lostAll (track r x) calls

def settles (x : FaultyCall) (key : CacheKey) : Bool :=
  match x.request with
  | .put k _ => k == key && !x.fails .put
  | .get _ => false
  | .remove k => k == key && !x.fails .remove
  | .clear => true

/-- A key was lost by one of the calls, and not settled by a later one. -/
def Strays (r : Recency CacheKey) (calls : List FaultyCall) (key : CacheKey) : Prop :=
  ∃ before x after, calls = before ++ x :: after ∧ x.lost? (trackAll before r) = some key ∧
    ∀ y ∈ after, y.settles key = false

end FaultyCall

def Cache.KeepsBound : Cache FaultyStore → Prop
  | .bounded r (.store s) =>
    (∀ key, (s.inner.get? key).isSome → key ∈ r.keys) ∧ Store.size s ≤ r.capacity
  | _ => False

namespace FaultyCall

variable {r : Recency CacheKey} {s : MapStore} {lost : CacheKey → Prop}

theorem trackAll_concat (calls : List FaultyCall) (x : FaultyCall) (r : Recency CacheKey) :
    trackAll (calls ++ [x]) r = track (trackAll calls r) x := by
  rw [trackAll, List.foldl_append]
  rfl

theorem lostAll_append (calls later : List FaultyCall) (r : Recency CacheKey) :
    lostAll r (calls ++ later) = lostAll r calls ++ lostAll (trackAll calls r) later := by
  induction calls generalizing r with
  | nil => rfl
  | cons x calls ih =>
    rw [List.cons_append, lostAll, ih, ← List.append_assoc]
    rfl

/-- A key is a stray after one more call if this call lost it, or if it was one before and the call
did not settle it. -/
theorem strays_concat (calls : List FaultyCall) (x : FaultyCall) (key : CacheKey) :
    Strays r (calls ++ [x]) key ↔ x.lost? (trackAll calls r) = some key ∨
      Strays r calls key ∧ x.settles key = false := by
  constructor
  · rintro ⟨before, y, after, hsplit, hlost, hafter⟩
    -- Either the last call lost the key, or it comes after the one that did.
    rcases List.eq_nil_or_concat after with rfl | ⟨after, z, rfl⟩
    · obtain ⟨rfl, hlast⟩ := List.append_inj' hsplit rfl
      obtain rfl : x = y := List.singleton_inj.mp hlast
      exact .inl hlost
    · rw [List.concat_eq_append] at hsplit hafter
      rw [← List.cons_append, ← List.append_assoc] at hsplit
      obtain ⟨rfl, hlast⟩ := List.append_inj' hsplit rfl
      obtain rfl : x = z := List.singleton_inj.mp hlast
      refine .inr ⟨⟨before, y, after, rfl, hlost, ?_⟩, hafter x (by simp)⟩
      intro w hw
      exact hafter w (List.mem_append_left _ hw)
  · rintro (hlost | ⟨⟨before, y, after, rfl, hlost, hafter⟩, hkept⟩)
    · exact ⟨calls, x, [], rfl, hlost, nofun⟩
    · refine ⟨before, y, after ++ [x], by simp, hlost, ?_⟩
      intro w hw
      rcases List.mem_append.mp hw with hw | hw
      · exact hafter w hw
      · exact List.mem_singleton.mp hw ▸ hkept

/-- What was lost was lost by one of the calls. -/
theorem exists_of_mem_lostAll {calls : List FaultyCall} {key : CacheKey}
    (h : key ∈ lostAll r calls) :
    ∃ before x after, calls = before ++ x :: after ∧ x.lost? (trackAll before r) = some key := by
  induction calls generalizing r with
  | nil => exact nomatch h
  | cons x calls ih =>
    rcases List.mem_append.mp h with hlost | hlater
    · exact ⟨[], x, calls, rfl, Option.mem_toList.mp hlost⟩
    · obtain ⟨before, y, after, rfl, hlost⟩ := ih hlater
      exact ⟨x :: before, y, after, rfl, hlost⟩

theorem Strays.mem_lostAll {calls : List FaultyCall} {key : CacheKey} (h : Strays r calls key) :
    key ∈ lostAll r calls := by
  obtain ⟨before, x, after, rfl, hlost, -⟩ := h
  rw [lostAll_append, lostAll, hlost]
  simp

/-- Only a failing removal loses a key. -/
theorem lostAll_eq_nil {calls : List FaultyCall} (h : ∀ x ∈ calls, x.fails .remove = false) :
    lostAll r calls = [] := by
  rw [List.eq_nil_iff_forall_not_mem]
  intro key hlost
  obtain ⟨before, x, after, rfl, hx⟩ := exists_of_mem_lostAll hlost
  have hremove : x.fails .remove = false := h x (by simp)
  have hnone (r' : Recency CacheKey) : x.lost? r' = none := by
    unfold lost?
    split <;> simp [hremove]
  rw [hnone] at hx
  cases hx

structure Accounts (lost : CacheKey → Prop) (r : Recency CacheKey) (s : MapStore) : Prop where
  distinct : r.keys.Nodup
  within : r.keys.length ≤ r.capacity
  nodup : s.keys.Nodup
  stored : ∀ key, key ∈ s.keys ↔ key ∈ r.keys ∨ lost key
  apart : ∀ key ∈ r.keys, ¬ lost key

namespace Accounts

theorem congr {lost' : CacheKey → Prop} (h : Accounts lost r s)
    (hsame : ∀ key, lost' key ↔ lost key) : Accounts lost' r s := by
  obtain rfl : lost' = lost := funext fun key => propext (hsame key)
  exact h

theorem touch (h : Accounts lost r s) (key : CacheKey) : Accounts lost (r.touch key) s := by
  have hperm := r.perm_touch key
  refine ⟨hperm.nodup_iff.mpr h.distinct, ?_, h.nodup, ?_, ?_⟩
  · rw [hperm.length_eq, r.capacity_touch key]
    exact h.within
  · intro k
    rw [hperm.mem_iff]
    exact h.stored k
  · intro k hk
    exact h.apart k (hperm.mem_iff.mp hk)

/-- A key that is tracked no longer, and still stored, is lost. -/
theorem lose (h : Accounts lost r s) {r' : Recency CacheKey} {key : CacheKey}
    (hkeys : r.keys.Perm (key :: r'.keys)) (hcapacity : r'.capacity = r.capacity) :
    Accounts (fun k => k = key ∨ lost k) r' s := by
  obtain ⟨hgone, hdistinct⟩ := List.nodup_cons.mp (hkeys.nodup_iff.mp h.distinct)
  refine ⟨hdistinct, ?_, h.nodup, ?_, ?_⟩
  · have hlength := hkeys.length_eq
    have hwithin := h.within
    rw [List.length_cons] at hlength
    omega
  · intro k
    rw [h.stored, hkeys.mem_iff, List.mem_cons, or_assoc, or_left_comm]
  · rintro k hk (rfl | hlost)
    · exact hgone hk
    · exact h.apart k (hkeys.mem_iff.mpr (List.mem_cons_of_mem _ hk)) hlost

/-- A key that is stored and tracked is not lost. -/
theorem insert (h : Accounts lost r s) {r' : Recency CacheKey} {key : CacheKey} (v : Value)
    (hkeys : r'.keys = key :: r.keys.filter (· != key)) (hwithin : r'.keys.length ≤ r'.capacity) :
    Accounts (fun k => lost k ∧ k ≠ key) r' (s.insert key v) := by
  refine ⟨?_, hwithin, ?_, ?_, ?_⟩
  · rw [hkeys]
    apply List.nodup_cons.mpr
    exact ⟨by simp, h.distinct.filter _⟩
  · rw [MapStore.keys_insert]
    apply List.nodup_cons.mpr
    exact ⟨by simp, h.nodup.filter _⟩
  · intro k
    simp only [MapStore.keys_insert, hkeys, List.mem_cons, List.mem_filter, bne_iff_ne, h.stored]
    by_cases hk : k = key
    · simp [hk]
    · simp [hk]
  · intro k hk hlost
    rw [hkeys] at hk
    rcases List.mem_cons.mp hk with rfl | hk
    · exact hlost.2 rfl
    · exact h.apart k (List.mem_of_mem_filter hk) hlost.1

/-- A key that is not stored is not lost. -/
theorem erase (h : Accounts lost r s) {key : CacheKey} (hkey : key ∉ r.keys) :
    Accounts (fun k => lost k ∧ k ≠ key) r (s.erase key) := by
  refine ⟨h.distinct, h.within, ?_, ?_, fun k hk hlost => h.apart k hk hlost.1⟩
  · rw [MapStore.keys_erase]
    exact h.nodup.filter _
  · intro k
    rw [MapStore.keys_erase, List.mem_filter, bne_iff_ne, h.stored]
    by_cases hk : k = key
    · simp [hk, hkey]
    · simp [hk]

/-- Nothing is stored, and nothing tracked. -/
theorem cleared (r : Recency CacheKey) (id : String) :
    Accounts (fun _ => False) r.clear (.empty id) := by
  refine ⟨List.nodup_nil, Nat.zero_le _, List.nodup_nil, fun key => ?_, nofun⟩
  simp [Recency.clear, MapStore.empty, MapStore.keys]

end Accounts

def cache (r : Recency CacheKey) (s : MapStore) (fails : StoreOp → Bool) : Cache FaultyStore :=
  .bounded r (.store ⟨s, fails⟩)

def keep (x : FaultyCall) (r : Recency CacheKey) (s : MapStore) : MapStore :=
  match x.request with
  | .put key v =>
    if x.fails .put then s
    else
      match (r.push key).1 with
      | some eldest => if x.fails .remove then s.insert key v else (s.insert key v).erase eldest
      | none => s.insert key v
  | .get _ => s
  | .remove key => if x.fails .remove then s else s.erase key
  | .clear => Store.clear s

theorem on_cache (x : FaultyCall) (r : Recency CacheKey) (s : MapStore) (fails : StoreOp → Bool) :
    ∃ answer, x.on (cache r s fails) = some (answer, cache (track r x) (x.keep r s) x.fails) := by
  obtain ⟨fails', request⟩ := x
  unfold on
  change ∃ answer, (cache r s fails').call request.call = _
  -- For each request, whether the operations of the store fail that it comes to.
  cases request with
  | put key v =>
    change ∃ answer, some (Cache.unvalued ((cache r s fails').put key v)) = _
    dsimp only [cache, Cache.put, Store.put, FaultyStore.attempt, track, keep]
    by_cases hput : fails' .put = true
    · simp only [if_pos hput]
      exact ⟨_, rfl⟩
    simp only [if_neg hput]
    rcases hpush : r.push key with ⟨_ | eldest, r'⟩
    · exact ⟨_, rfl⟩
    dsimp only [Cache.thenState, Cache.remove, Store.remove, FaultyStore.attempt]
    by_cases hremove : fails' .remove = true
    · simp only [if_pos hremove]
      exact ⟨_, rfl⟩
    · simp only [if_neg hremove]
      exact ⟨_, rfl⟩
  | get key =>
    change ∃ answer, (cache r s fails').get key = _
    dsimp only [cache, Cache.get, Store.get, FaultyStore.attempt]
    by_cases hget : fails' .get = true
    · simp only [if_pos hget]
      exact ⟨_, rfl⟩
    · simp only [if_neg hget]
      exact ⟨_, rfl⟩
  | remove key =>
    change ∃ answer, some ((cache r s fails').remove key) = _
    dsimp only [cache, Cache.remove, Store.remove, FaultyStore.attempt, keep]
    by_cases hremove : fails' .remove = true
    · simp only [if_pos hremove]
      exact ⟨_, rfl⟩
    · simp only [if_neg hremove]
      exact ⟨_, rfl⟩
  | clear => exact ⟨_, rfl⟩

def lostAfter (lost : CacheKey → Prop) (r : Recency CacheKey) (x : FaultyCall) (key : CacheKey) :
    Prop :=
  x.lost? r = some key ∨ lost key ∧ x.settles key = false

theorem settles_put {fails : StoreOp → Bool} (hput : fails .put = false) (key : CacheKey)
    (v : Value) (k : CacheKey) : settles ⟨fails, .put key v⟩ k = false ↔ k ≠ key := by
  have hother : settles ⟨fails, .put key v⟩ k = false ↔ key ≠ k := by
    simp [settles, hput]
  exact hother.trans ne_comm

namespace Accounts

variable {fails : StoreOp → Bool} {key : CacheKey}

theorem put_of_room (h : Accounts lost r s) (v : Value) (hput : fails .put = false)
    (hroom : key ∈ r.keys ∨ r.keys.length < r.capacity) :
    Accounts (lostAfter lost r ⟨fails, .put key v⟩) (track r ⟨fails, .put key v⟩)
      (keep ⟨fails, .put key v⟩ r s) := by
  obtain ⟨r', hpush, hkeys, hcapacity, hlength⟩ := Recency.push_of_room h.distinct hroom
  have hwithin : r'.keys.length ≤ r'.capacity := by
    have hbefore := h.within
    omega
  have hnone : lost? ⟨fails, .put key v⟩ r = none := by
    dsimp only [lost?]
    rw [hpush, ite_self]
  simp only [track, keep, hput, hpush]
  apply (h.insert v hkeys hwithin).congr
  intro k
  rw [lostAfter, hnone, settles_put hput]
  simp

/-- The key that has to go is lost if the store fails to take it out. -/
theorem put_of_full (h : Accounts lost r s) (v : Value) (hput : fails .put = false)
    (hnew : key ∉ r.keys) (hfull : r.keys.length = r.capacity) :
    Accounts (lostAfter lost r ⟨fails, .put key v⟩) (track r ⟨fails, .put key v⟩)
      (keep ⟨fails, .put key v⟩ r s) := by
  obtain ⟨others, eldest, r', hkeys, hpush, hkeys', hcapacity⟩ := Recency.push_of_full hnew hfull
  have hperm : r.keys.Perm (eldest :: others) := hkeys ▸ List.perm_append_singleton eldest others
  have heldest : eldest ∈ r.keys := hperm.mem_iff.mpr List.mem_cons_self
  have hne : eldest ≠ key := ne_of_mem_of_not_mem heldest hnew
  have hothers : others.filter (· != key) = others := by
    refine List.filter_eq_self.mpr fun k hk => bne_iff_ne.mpr ?_
    exact ne_of_mem_of_not_mem (hperm.mem_iff.mpr (List.mem_cons_of_mem _ hk)) hnew
  have hwithin : r'.keys.length ≤ r'.capacity := by
    rw [hcapacity, hkeys', ← hfull, hperm.length_eq]
    exact Nat.le_refl _
  -- First the eldest key goes, which makes room, and then the new one comes in.
  have hlost : Accounts (fun k => k = eldest ∨ lost k) { r with keys := others } s :=
    h.lose hperm rfl
  have hstored := hlost.insert v (by rw [hkeys', hothers]) hwithin
  simp only [track, keep, hput, hpush]
  by_cases hremove : fails .remove = true
  · have hsome : lost? ⟨fails, .put key v⟩ r = some eldest := by simp [lost?, hput, hremove, hpush]
    simp only [if_pos hremove]
    apply hstored.congr
    intro k
    rw [lostAfter, hsome, settles_put hput]
    grind
  · have hnone : lost? ⟨fails, .put key v⟩ r = none := by simp [lost?, hremove]
    have hgone : eldest ∉ r'.keys := fun hmem => hstored.apart eldest hmem ⟨.inl rfl, hne⟩
    have hkept : ¬ lost eldest := h.apart eldest heldest
    simp only [if_neg hremove]
    apply (hstored.erase hgone).congr
    intro k
    rw [lostAfter, hnone, settles_put hput]
    grind

/-- Forgetting a key loses it if it was tracked. -/
theorem forget (h : Accounts lost r s) (key : CacheKey) :
    Accounts (fun k => (key ∈ r.keys ∧ k = key) ∨ lost k) (r.forget key) s := by
  by_cases hused : key ∈ r.keys
  · have hperm : r.keys.Perm (key :: (r.forget key).keys) := List.perm_cons_erase hused
    apply (h.lose hperm rfl).congr
    intro k
    rw [and_iff_right hused]
  · have hsame : r.forget key = r := by rw [Recency.forget, List.erase_of_not_mem hused]
    rw [hsame]
    apply h.congr
    intro k
    rw [or_iff_right fun hlost => hused hlost.1]

theorem remove (h : Accounts lost r s) (fails : StoreOp → Bool) (key : CacheKey) :
    Accounts (lostAfter lost r ⟨fails, .remove key⟩) (r.forget key)
      (keep ⟨fails, .remove key⟩ r s) := by
  by_cases hremove : fails .remove = true
  · simp only [keep, if_pos hremove]
    apply (h.forget key).congr
    intro k
    simp only [lostAfter, lost?, settles, hremove]
    grind
  · have hgone : key ∉ (r.forget key).keys := fun hmem => h.distinct.not_mem_erase hmem
    have hkept : key ∈ r.keys → ¬ lost key := h.apart key
    simp only [keep, if_neg hremove]
    apply ((h.forget key).erase hgone).congr
    intro k
    simp only [lostAfter, lost?, settles, hremove]
    grind

/-- What one call does to the books. -/
theorem step (h : Accounts lost r s) (x : FaultyCall) :
    Accounts (lostAfter lost r x) (track r x) (x.keep r s) := by
  obtain ⟨fails, request⟩ := x
  cases request with
  | put key v =>
    cases hput : fails .put with
    | true =>
      -- The store is left as it is, and so is the order of use.
      simp only [track, keep, hput, if_true]
      apply h.congr
      intro k
      simp [lostAfter, lost?, settles, hput]
    | false =>
      by_cases hroom : key ∈ r.keys ∨ r.keys.length < r.capacity
      · exact h.put_of_room v hput hroom
      · obtain ⟨hnew, hfull⟩ := not_or.mp hroom
        exact h.put_of_full v hput hnew (Nat.le_antisymm h.within (Nat.not_lt.mp hfull))
  | get key => exact (h.touch key).congr fun k => by simp [lostAfter, lost?, settles]
  | remove key => exact h.remove fails key
  | clear => exact (cleared r s.id).congr fun k => by simp [lostAfter, lost?, settles]

/-- There is room for the tracked keys; the others were lost. -/
theorem size_le {calls : List FaultyCall} {r₀ : Recency CacheKey}
    (h : Accounts (Strays r₀ calls) r s) :
    Store.size s ≤ r.capacity + (lostAll r₀ calls).length := by
  have hsub : s.keys ⊆ r.keys ++ lostAll r₀ calls := by
    intro key hkey
    rcases (h.stored key).mp hkey with htracked | hlost
    · exact List.mem_append_left _ htracked
    · exact List.mem_append_right _ hlost.mem_lostAll
  calc Store.size s = s.keys.length := (List.length_map _).symm
    _ ≤ (r.keys ++ lostAll r₀ calls).length := (h.nodup.subperm hsub).length_le
    _ = r.keys.length + (lostAll r₀ calls).length := List.length_append
    _ ≤ r.capacity + (lostAll r₀ calls).length := Nat.add_le_add_right h.within _

end Accounts

/-- What calls do to the books of a new cache. -/
theorem onAll_cache (r : Recency CacheKey) (id : String) (calls : List FaultyCall) :
    ∃ s fails, onAll calls (.bounded r.clear (.store (.empty id))) =
        some (cache (trackAll calls r.clear) s fails) ∧
      Accounts (Strays r.clear calls) (trackAll calls r.clear) s := by
  -- On the calls from the end: the last one finds the books of those before.
  induction calls using List.reverseRecOn with
  | nil =>
    refine ⟨.empty id, fun _ => false, rfl, (Accounts.cleared r id).congr fun key => ?_⟩
    simp [Strays]
  | append_singleton calls x ih =>
    obtain ⟨s, fails, hcalls, hbooks⟩ := ih
    obtain ⟨answer, hlast⟩ := x.on_cache (trackAll calls r.clear) s fails
    refine ⟨x.keep (trackAll calls r.clear) s, x.fails, ?_, ?_⟩
    · have hboth : onAll (calls ++ [x]) (.bounded r.clear (.store (.empty id))) =
          (onAll calls (.bounded r.clear (.store (.empty id)))).bind
            fun c => (x.on c).map (·.2) := by
        rw [onAll, List.foldlM_append]
        simp [onAll]
      rw [hboth, hcalls, Option.bind_some, hlast, trackAll_concat]
      rfl
    · rw [trackAll_concat]
      exact (hbooks.step x).congr fun key => strays_concat calls x key

theorem capacity_trackAll (calls : List FaultyCall) (r : Recency CacheKey) :
    (trackAll calls r).capacity = r.capacity := by
  induction calls generalizing r with
  | nil => rfl
  | cons x calls ih =>
    refine (ih (track r x)).trans ?_
    unfold track
    split
    · split
      · rfl
      · exact r.capacity_push _
    · exact r.capacity_touch _
    · rfl
    · rfl

/-- A bounded cache keeps its bound, call after call, exactly as long as the store does not fail to
take out a key that is tracked no longer; puts and looks may fail. In any case the tracked keys are
stored, the stored keys that are not tracked are those that were lost and not settled since, and the
cache exceeds its bound by at most one entry for each time that a key was lost. -/
theorem onAll_keepsBound_iff (r : Recency CacheKey) (id : String) (calls : List FaultyCall) :
    let start : Cache FaultyStore := .bounded r.clear (.store (.empty id))
    let tracked := trackAll calls r.clear
    (∃ s, onAll calls start = some (.bounded tracked (.store s)) ∧ tracked.capacity = r.capacity ∧
      (∀ key ∈ tracked.keys, (s.inner.get? key).isSome) ∧
      (∀ key, (s.inner.get? key).isSome ∧ key ∉ tracked.keys ↔ Strays r.clear calls key) ∧
      Store.size s ≤ r.capacity + (lostAll r.clear calls).length) ∧
    ((∀ before, before <+: calls → ∃ c, onAll before start = some c ∧ c.KeepsBound) ↔
      lostAll r.clear calls = []) ∧
    ((∀ x ∈ calls, x.fails .remove = false) → lostAll r.clear calls = []) := by
  intro start tracked
  refine ⟨?_, ⟨?_, ?_⟩, lostAll_eq_nil⟩
  · obtain ⟨s, fails, hcalls, hbooks⟩ := onAll_cache r id calls
    have hcapacity : tracked.capacity = r.capacity := capacity_trackAll calls r.clear
    refine ⟨⟨s, fails⟩, hcalls, hcapacity, ?_, ?_, ?_⟩
    · intro key hkey
      have hstored : key ∈ s.keys := (hbooks.stored key).mpr (.inl hkey)
      exact MapStore.mem_keys_iff.mp hstored
    · intro key
      have hapart := hbooks.apart key
      rw [← MapStore.mem_keys_iff, hbooks.stored]
      tauto
    · rw [← hcapacity]
      exact hbooks.size_le
  · intro hkeeps
    rw [List.eq_nil_iff_forall_not_mem]
    intro key hlost
    obtain ⟨before, x, after, rfl, hx⟩ := exists_of_mem_lostAll hlost
    -- Right after the call that lost it, the key is stored and not tracked.
    obtain ⟨s, fails, hcalls, hbooks⟩ := onAll_cache r id (before ++ [x])
    obtain ⟨c, hc, hbound⟩ := hkeeps (before ++ [x]) ⟨after, by simp⟩
    obtain rfl : cache _ s fails = c := Option.some.inj (hcalls.symm.trans hc)
    have hstray : Strays r.clear (before ++ [x]) key := (strays_concat before x key).mpr (.inl hx)
    have hstored : key ∈ s.keys := (hbooks.stored key).mpr (.inr hstray)
    exact hbooks.apart key (hbound.1 key (MapStore.mem_keys_iff.mp hstored)) hstray
  · rintro hnone before ⟨later, rfl⟩
    -- What loses nothing has not lost anything before.
    obtain ⟨s, fails, hcalls, hbooks⟩ := onAll_cache r id before
    have hbefore : lostAll r.clear before = [] := by
      rw [lostAll_append] at hnone
      exact (List.append_eq_nil_iff.mp hnone).1
    refine ⟨_, hcalls, ?_, ?_⟩
    · intro key hkey
      rcases (hbooks.stored key).mp (MapStore.mem_keys_iff.mpr hkey) with htracked | hstray
      · exact htracked
      · have hlost := hstray.mem_lostAll
        rw [hbefore] at hlost
        cases hlost
    · have hsize := hbooks.size_le
      rwa [hbefore] at hsize

/-- With room for one key, a second one is put while the store fails to take the first one out, and
then a third one while nothing fails. -/
def failedEviction : List FaultyCall :=
  [⟨fun _ => false, .put (Tracking.numbered 1) .null⟩,
    ⟨(· == .remove), .put (Tracking.numbered 2) .null⟩,
    ⟨fun _ => false, .put (Tracking.numbered 3) .null⟩]

/-- The first key is still stored, and never goes; there are two entries where there is room for
one. -/
theorem outgrows_bound_after_failedEviction :
    ∃ r s, onAll failedEviction (.bounded ⟨1, [], by decide⟩ (.store (.empty "users"))) =
        some (.bounded r (.store s)) ∧
      (s.inner.get? (Tracking.numbered 1)).isSome ∧ Tracking.numbered 1 ∉ r.keys ∧
      r.capacity < Store.size s :=
  ⟨_, _, rfl, by decide, by decide, by decide⟩

end FaultyCall
end SqlMapper
