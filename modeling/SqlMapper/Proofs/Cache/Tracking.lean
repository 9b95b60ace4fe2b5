import Mathlib.Data.List.Perm.Subperm
import SqlMapper.Proofs.Cache.Eviction

/-!
Clients of one bounded cache over a store in memory, side by side. A key that is stored and not
tracked is owed by an operation that is about to track or to erase it, after every step but the
second one of clearing.
-/

namespace SqlMapper

namespace Tracking

inductive Stage where
  | storing (key : CacheKey) (v : Value)
  /-- The value is stored, and its key is about to be tracked. -/
  | tracking (key : CacheKey)
  /-- The key had to go for another one, and is about to leave the store. -/
  | evicting (key : CacheKey)
  | touching (key : CacheKey)
  | reading (key : CacheKey)
  | forgetting (key : CacheKey)
  /-- The key is forgotten, and about to leave the store. -/
  | erasing (key : CacheKey)
  | emptying
  /-- The store was emptied, and no key is about to be tracked any longer. -/
  | untracking
  | answered (answer : Option Value)
  deriving DecidableEq

namespace Stage

def step (r : Recency CacheKey) (s : MapStore) : Stage → Stage × Recency CacheKey × MapStore
  | storing key v => (tracking key, r, s.insert key v)
  | tracking key => ((r.push key).1.elim (answered none) evicting, (r.push key).2, s)
  | evicting key => (answered none, r, s.erase key)
  | touching key => (reading key, r.touch key, s)
  | reading key => (answered (s.get? key), r, s)
  | forgetting key => (erasing key, r.forget key, s)
  | erasing key => (answered (s.get? key), r, s.erase key)
  | emptying => (untracking, r, Store.clear s)
  | untracking => (answered none, r.clear, s)
  | answered answer => (answered answer, r, s)

def finish (stage : Stage) (r : Recency CacheKey) (s : MapStore) :
    Stage × Recency CacheKey × MapStore :=
  let (stage, r, s) := stage.step r s
  let (stage, r, s) := stage.step r s
  stage.step r s

/-! An operation that is alone does in steps what the bounded cache does at one go. -/

section

variable (r : Recency CacheKey) (s : MapStore) (key : CacheKey)

def outcome : Stage × Recency CacheKey × MapStore → Option (Cache.Outcome MapStore (Option Value))
  | (answered answer, r, s) => some (.ok answer, .bounded r (.store s))
  | _ => none

theorem finish_put (v : Value) : outcome ((storing key v).finish r s) =
    some (Cache.unvalued ((Cache.bounded r (.store s)).put key v)) := by
  rw [Cache.put_bounded_store]
  simp only [finish, step]
  rcases r.push key with ⟨_ | eldest, r'⟩ <;> rfl

theorem finish_get : outcome ((touching key).finish r s) =
    (Cache.bounded r (.store s)).get key := rfl

theorem finish_remove : outcome ((forgetting key).finish r s) =
    some ((Cache.bounded r (.store s)).remove key) := rfl

theorem finish_clear : outcome (emptying.finish r s) =
    some (.ok none, (Cache.bounded r (.store s)).clear) := rfl

end

/-- Whether an operation is going to track a key or to take it out of the store. -/
def owes (key : CacheKey) : Stage → Bool
  | storing k _ | tracking k | evicting k | forgetting k | erasing k => k == key
  | emptying => true
  | touching _ | reading _ | untracking | answered _ => false

def isOver : Stage → Bool
  | answered _ => true
  | _ => false

end Stage
end Tracking

structure Tracking where
  recency : Recency CacheKey
  store : MapStore
  calls : List Tracking.Stage

namespace Tracking

inductive Event where
  | put (key : CacheKey) (v : Value)
  | get (key : CacheKey)
  | remove (key : CacheKey)
  | clear
  | proceed (i : Nat)

def start (r : Recency CacheKey) (id : String) : Tracking := ⟨r.clear, .empty id, []⟩

def begin (first : Stage) (s : Tracking) : Tracking := { s with calls := s.calls ++ [first] }

def step (s : Tracking) : Event → Tracking
  | .put key v => s.begin (.storing key v)
  | .get key => s.begin (.touching key)
  | .remove key => s.begin (.forgetting key)
  | .clear => s.begin .emptying
  | .proceed i =>
    match s.calls[i]? with
    | none => s
    | some stage =>
      let (stage, r, store) := stage.step s.recency s.store
      ⟨r, store, s.calls.set i stage⟩

def run (s : Tracking) (events : List Event) : Tracking := events.foldl step s

def isQuiet (s : Tracking) : Bool := s.calls.all (·.isOver)

def keeps (s : Tracking) (key : CacheKey) : Bool :=
  (s.store.get? key).isSome && s.recency.keys.contains key && !s.calls.any (·.owes key)

/-- Whether a step of clearing is about to forget a key that it did not take out of the store. -/
def drops (s : Tracking) : Event → Bool
  | .proceed i => s.calls[i]? == some .untracking && s.recency.keys.any s.keeps
  | _ => false

def dropsIn (s : Tracking) : List Event → Bool
  | [] => false
  | e :: events => s.drops e || (s.step e).dropsIn events

end Tracking

namespace Recency

variable {r : Recency CacheKey} {key : CacheKey}

theorem capacity_push (r : Recency CacheKey) (key : CacheKey) :
    (r.push key).2.capacity = r.capacity := by
  unfold push
  split_ifs <;> rfl

/-- The key is tracked then, and so are those that were, but for the one that had to go. -/
theorem push_tracks (r : Recency CacheKey) (key : CacheKey) :
    key ∈ (r.push key).2.keys ∧
      ∀ k ∈ r.keys, k ∈ (r.push key).2.keys ∨ (r.push key).1 = some k := by
  unfold push
  split_ifs with hused hroom
  · refine ⟨List.mem_cons_self, fun k hk => .inl ?_⟩
    by_cases hsame : k = key
    · exact hsame ▸ List.mem_cons_self
    · exact List.mem_cons_of_mem _ ((List.mem_erase_of_ne hsame).mpr hk)
  · exact ⟨List.mem_cons_self, fun k hk => .inl (List.mem_cons_of_mem _ hk)⟩
  · refine ⟨List.mem_cons_self, fun k hk => ?_⟩
    have hne : r.keys ≠ [] := List.ne_nil_of_mem hk
    rw [← List.dropLast_append_getLast hne, List.mem_append, List.mem_singleton] at hk
    rcases hk with hk | hk
    · exact .inl (List.mem_cons_of_mem _ hk)
    · exact .inr (by rw [List.getLast?_eq_some_getLast hne, hk])

theorem within_push (h : r.keys.length ≤ r.capacity) (key : CacheKey) :
    (r.push key).2.keys.length ≤ r.capacity := by
  have hpos := r.positive
  unfold push
  split_ifs with hused hroom
  · have hsome : 0 < r.keys.length := List.length_pos_of_mem hused
    simp only [List.length_cons, List.length_erase_of_mem hused]
    omega
  · exact hroom
  · simp only [List.length_cons, List.length_dropLast]
    omega

theorem capacity_touch (r : Recency CacheKey) (key : CacheKey) :
    (r.touch key).capacity = r.capacity := by
  unfold touch
  split_ifs <;> rfl

theorem perm_touch (r : Recency CacheKey) (key : CacheKey) :
    (r.touch key).keys.Perm r.keys := by
  unfold touch
  split_ifs with hused
  · exact (List.perm_cons_erase hused).symm
  · exact .rfl

end Recency

namespace MapStore

variable {s : MapStore}

def keys (s : MapStore) : List CacheKey := s.entries.map (·.1)

theorem mem_keys_iff {key : CacheKey} : key ∈ s.keys ↔ (s.get? key).isSome := by
  have hnone : key ∉ s.keys ↔ s.get? key = none := by
    rw [get?, List.lookup_eq_none_iff, keys, List.mem_map, not_exists]
    refine forall_congr' fun e => ?_
    rw [bne_iff_ne, ne_comm, not_and]
  rw [← not_iff_not, hnone, Bool.not_eq_true, Option.isSome_eq_false_iff, Option.isNone_iff_eq_none]

theorem keys_erase (s : MapStore) (key : CacheKey) :
    (s.erase key).keys = s.keys.filter (· != key) := by
  rw [keys, keys, erase, List.filter_map]
  rfl

theorem keys_insert (s : MapStore) (key : CacheKey) (v : Value) :
    (s.insert key v).keys = key :: s.keys.filter (· != key) := by
  rw [← keys_erase]
  rfl

end MapStore

namespace Tracking

/-! One step of one operation. -/

namespace Stage

def Minds (key : CacheKey) (stage : Stage) (r : Recency CacheKey) : Prop :=
  key ∈ r.keys ∨ stage.owes key = true

structure Settles (stage : Stage) (r : Recency CacheKey) (s : MapStore) (stage' : Stage)
    (r' : Recency CacheKey) (s' : MapStore) : Prop where
  capacity : r'.capacity = r.capacity
  within : r.keys.length ≤ r.capacity → r'.keys.length ≤ r.capacity
  nodup : s.keys.Nodup → s'.keys.Nodup
  /-- A stored key that is neither tracked nor owed is none of its making, unless it forgets all
  keys. -/
  minded : stage ≠ .untracking → ∀ key ∈ s'.keys, (key ∈ s.keys → Minds key stage r) →
    Minds key stage' r'

/-- Taking one key out of the store settles what is owed for it. -/
theorem minded_erase {stage stage' : Stage} {r : Recency CacheKey} {s : MapStore} {key : CacheKey}
    (howes : ∀ k, stage.owes k = (key == k)) :
    ∀ k ∈ (s.erase key).keys, (k ∈ s.keys → Minds k stage r) → Minds k stage' r := by
  intro k hk hbefore
  rw [MapStore.keys_erase, List.mem_filter, bne_iff_ne] at hk
  obtain ⟨hstored, hne⟩ := hk
  refine (hbefore hstored).imp_right fun howed => ?_
  exact absurd (beq_iff_eq.mp (howes k ▸ howed)).symm hne

/-- No section takes the order of use over its bound, or leaves a key stored that is neither tracked
nor owed, unless it forgets all keys. -/
theorem settles_step (stage : Stage) (r : Recency CacheKey) (s : MapStore) :
    Settles stage r s (stage.step r s).1 (stage.step r s).2.1 (stage.step r s).2.2 := by
  have herase (key : CacheKey) (h : s.keys.Nodup) : (s.erase key).keys.Nodup :=
    MapStore.keys_erase s key ▸ h.filter _
  cases stage with
  | storing key v =>
    refine ⟨rfl, id, fun h => ?_, fun _ k hk hbefore => ?_⟩
    · exact MapStore.keys_insert s key v ▸ List.nodup_cons.mpr ⟨by simp, h.filter _⟩
    · rcases List.mem_cons.mp (MapStore.keys_insert s key v ▸ hk) with rfl | hk
      · exact .inr (beq_self_eq_true k)
      · exact hbefore (List.mem_of_mem_filter hk)
  | tracking key =>
    obtain ⟨htracked, hothers⟩ := r.push_tracks key
    refine ⟨r.capacity_push key, fun h => r.within_push h key, id, fun _ k hk hbefore => ?_⟩
    rcases hbefore hk with htrack | howed
    · refine (hothers k htrack).imp_right fun hevicted => ?_
      simp only [step, hevicted]
      exact beq_self_eq_true k
    · exact .inl (beq_iff_eq.mp howed ▸ htracked)
  | evicting key => exact ⟨rfl, id, herase key, fun _ => minded_erase fun _ => rfl⟩
  | touching key =>
    have hperm := r.perm_touch key
    refine ⟨r.capacity_touch key, fun h => hperm.length_eq ▸ h, id, fun _ k hk hbefore => ?_⟩
    exact (hbefore hk).imp_left hperm.mem_iff.mpr
  | reading key => exact ⟨rfl, id, id, fun _ k hk hbefore => hbefore hk⟩
  | forgetting key =>
    have hlength : (r.keys.erase key).length ≤ r.keys.length := List.length_erase_le
    refine ⟨rfl, fun h => Nat.le_trans hlength h, id, fun _ k hk hbefore => ?_⟩
    by_cases hsame : k = key
    · exact .inr (beq_iff_eq.mpr hsame.symm)
    · exact (hbefore hk).imp_left (List.mem_erase_of_ne hsame).mpr
  | erasing key => exact ⟨rfl, id, herase key, fun _ => minded_erase fun _ => rfl⟩
  | emptying => exact ⟨rfl, id, fun _ => List.nodup_nil, fun _ k hk => nomatch hk⟩
  | untracking => exact ⟨rfl, fun _ => Nat.zero_le _, id, fun h => absurd rfl h⟩
  | answered answer => exact ⟨rfl, id, id, fun _ k hk hbefore => hbefore hk⟩

end Stage

/-! Any number of operations. -/

structure Bounded (room : Nat) (s : Tracking) : Prop where
  capacity : s.recency.capacity = room
  within : s.recency.keys.length ≤ room
  nodup : s.store.keys.Nodup

def Accounted (s : Tracking) : Prop :=
  ∀ key ∈ s.store.keys, key ∈ s.recency.keys ∨ ∃ c ∈ s.calls, c.owes key = true

variable {s : Tracking} {room : Nat}

theorem bounded_start (r : Recency CacheKey) (id : String) : (start r id).Bounded r.capacity :=
  ⟨rfl, Nat.zero_le _, List.nodup_nil⟩

theorem accounted_start (r : Recency CacheKey) (id : String) : (start r id).Accounted :=
  fun _ hstored => nomatch hstored

/-- No section takes the order of use over its bound. -/
theorem Bounded.step (h : s.Bounded room) (e : Event) : (s.step e).Bounded room := by
  cases e with
  | proceed i =>
    unfold Tracking.step
    dsimp only
    split
    · exact h
    · rename_i stage hstage
      have hsettles := stage.settles_step s.recency s.store
      have hcapacity := h.capacity
      refine ⟨hsettles.capacity.trans hcapacity, ?_, hsettles.nodup h.nodup⟩
      exact hcapacity ▸ hsettles.within (hcapacity ▸ h.within)
  | _ => exact ⟨h.capacity, h.within, h.nodup⟩

theorem Accounted.begin (h : s.Accounted) (first : Stage) : (s.begin first).Accounted := by
  intro key hstored
  refine (h key hstored).imp_right ?_
  rintro ⟨c, hc, howes⟩
  exact ⟨c, List.mem_append_left _ hc, howes⟩

/-- What the other operations owe, they owe after a step of this one. -/
theorem owed_set {calls : List Stage} {i : Nat} {stage : Stage} (hi : calls[i]? = some stage)
    (stage' : Stage) {key : CacheKey} (h : ∃ c ∈ calls, c.owes key = true) :
    stage.owes key = true ∨ ∃ c ∈ calls.set i stage', c.owes key = true := by
  obtain ⟨c, hc, howes⟩ := h
  obtain ⟨j, hj⟩ := List.getElem?_of_mem hc
  by_cases hji : j = i
  · subst hji
    obtain rfl : stage = c := Option.some.inj (hi.symm.trans hj)
    exact .inl howes
  · have hstays : (calls.set i stage')[j]? = some c := by
      rw [List.getElem?_set_ne (Ne.symm hji), hj]
    exact .inr ⟨c, List.mem_of_getElem? hstays, howes⟩

/-- The second step of clearing loses nothing exactly if all that is stored is owed. -/
theorem accounted_untracking_iff (h : s.Accounted) {i : Nat}
    (hi : s.calls[i]? = some .untracking) :
    (s.step (.proceed i)).Accounted ↔ s.drops (.proceed i) = false := by
  have hstep : s.step (.proceed i) =
      ⟨s.recency.clear, s.store, s.calls.set i (.answered none)⟩ := by
    rw [step, hi]
    rfl
  have howed (key : CacheKey) : (∃ c ∈ s.calls.set i (.answered none), c.owes key = true) ↔
      ∃ c ∈ s.calls, c.owes key = true := by
    refine ⟨?_, fun h => (owed_set hi (.answered none) h).resolve_left (by simp [Stage.owes])⟩
    rintro ⟨c, hc, howes⟩
    rcases List.mem_or_eq_of_mem_set hc with hc | rfl
    · exact ⟨c, hc, howes⟩
    · exact nomatch howes
  have hkeeps (key : CacheKey) : s.keeps key = false ↔
      (key ∈ s.store.keys → key ∈ s.recency.keys → ∃ c ∈ s.calls, c.owes key = true) := by
    simp [keeps, MapStore.mem_keys_iff]
  have hdrops : s.drops (.proceed i) = false ↔ ∀ key ∈ s.recency.keys, s.keeps key = false := by
    simp [drops, hi]
  rw [hstep, hdrops]
  constructor
  · intro hafter key htracked
    refine (hkeeps key).mpr fun hstored _ => (howed key).mp ?_
    exact (hafter key hstored).resolve_left List.not_mem_nil
  · intro hnone key hstored
    refine .inr ((howed key).mpr ?_)
    rcases h key hstored with htracked | howed
    · exact (hkeeps key).mp (hnone key htracked) hstored htracked
    · exact howed

/-- All that is stored stays tracked or owed, except if clearing forgets a key that it did not take
out of the store. -/
theorem accounted_step_iff (h : s.Accounted) (e : Event) :
    (s.step e).Accounted ↔ s.drops e = false := by
  cases e with
  | proceed i =>
    cases hi : s.calls[i]? with
    | none =>
      have hstep : s.step (.proceed i) = s := by rw [step, hi]
      simp [hstep, h, drops, hi]
    | some stage =>
      by_cases huntracking : stage = .untracking
      · exact accounted_untracking_iff h (huntracking ▸ hi)
      have hdrops : s.drops (.proceed i) = false := by simp [drops, hi, huntracking]
      refine ⟨fun _ => hdrops, fun _ => ?_⟩
      have hsettles := stage.settles_step s.recency s.store
      have hlt : i < s.calls.length := (List.getElem?_eq_some_iff.mp hi).1
      rw [step, hi]
      intro key hstored
      by_cases hothers : ∃ c ∈ s.calls.set i (stage.step s.recency s.store).1, c.owes key = true
      · exact .inr hothers
      -- Then only this operation may have owed the key before.
      have hbefore (hold : key ∈ s.store.keys) : stage.Minds key s.recency :=
        (h key hold).imp_right fun howed => (owed_set hi _ howed).resolve_right hothers
      refine (hsettles.minded huntracking key hstored hbefore).imp_right fun howes => ?_
      exact ⟨_, List.mem_set hlt _, howes⟩
  | _ => exact ⟨fun _ => rfl, fun _ => h.begin _⟩

theorem Bounded.run (h : s.Bounded room) (events : List Event) : (s.run events).Bounded room := by
  unfold Tracking.run
  induction events generalizing s with
  | nil => exact h
  | cons e events ih => exact ih (h.step e)

theorem Accounted.run (h : s.Accounted) (events : List Event) (hdrops : s.dropsIn events = false) :
    (s.run events).Accounted := by
  unfold Tracking.run
  -- On the events; none of them may lose a key.
  induction events generalizing s with
  | nil => exact h
  | cons e events ih =>
    obtain ⟨hfirst, hrest⟩ := Bool.or_eq_false_iff.mp hdrops
    exact ih ((accounted_step_iff h e).mpr hfirst) hrest

/-- Nothing is under way: what is accounted for is tracked, and so within the bound. -/
theorem Accounted.quiet (h : s.Accounted) (hb : s.Bounded room) (hquiet : s.isQuiet = true) :
    s.store.keys ⊆ s.recency.keys ∧ Store.size s.store ≤ room := by
  have htracked : s.store.keys ⊆ s.recency.keys := by
    intro key hstored
    refine (h key hstored).resolve_right ?_
    rintro ⟨c, hc, howes⟩
    have hover : c.isOver = true := List.all_eq_true.mp hquiet c hc
    cases c <;> simp_all [Stage.owes, Stage.isOver]
  have hsize : Store.size s.store = s.store.keys.length := (List.length_map _).symm
  refine ⟨htracked, ?_⟩
  calc Store.size s.store = s.store.keys.length := hsize
    _ ≤ s.recency.keys.length := (hb.nodup.subperm htracked).length_le
    _ ≤ room := hb.within

/-- Every stored key stays evictable, for any number of operations on one cache and any
interleaving of their steps, unless the second step of clearing forgets a key that others have
stored and tracked since the first: whenever no operation is under way the stored keys are tracked,
and there are no more of them than there is room for. While operations are under way every stored
key is tracked, or one of them is about to track it or to erase it. -/
theorem run_tracks (r : Recency CacheKey) (id : String) (events : List Event) :
    let s := (start r id).run events
    s.recency.capacity = r.capacity ∧
      ((start r id).dropsIn events = false →
        (∀ key, (s.store.get? key).isSome →
          key ∈ s.recency.keys ∨ ∃ c ∈ s.calls, c.owes key = true) ∧
        (s.isQuiet = true → (∀ key, (s.store.get? key).isSome → key ∈ s.recency.keys) ∧
          Store.size s.store ≤ s.recency.capacity)) := by
  intro s
  have hbounded : s.Bounded r.capacity := (bounded_start r id).run events
  refine ⟨hbounded.capacity, fun hdrops => ?_⟩
  have haccounted : s.Accounted := (accounted_start r id).run events hdrops
  refine ⟨fun key hstored => haccounted key (MapStore.mem_keys_iff.mpr hstored), fun hquiet => ?_⟩
  obtain ⟨htracked, hsize⟩ := haccounted.quiet hbounded hquiet
  refine ⟨fun key hstored => htracked (MapStore.mem_keys_iff.mpr hstored), ?_⟩
  exact hbounded.capacity ▸ hsize

def numbered (n : Int64) : CacheKey := ⟨[.int n]⟩

def small : Tracking := start ⟨2, [], by decide⟩ "users"

def finishing (i : Nat) : List Event := List.replicate 3 (.proceed i)

/-- Three puts whose steps alternate, a removal that begins while the evicted key is still stored,
and a clearing while nothing else is under way. -/
def crossing : List Event :=
  [.put (numbered 1) .null, .put (numbered 2) .null, .put (numbered 3) .null, .proceed 0,
    .proceed 2, .proceed 1, .proceed 1, .proceed 0, .proceed 2, .remove (numbered 1), .proceed 3,
    .proceed 2, .proceed 3, .clear] ++ finishing 4 ++
    .put (numbered 4) .null :: finishing 5

theorem tracks_crossing :
    let s := small.run crossing
    small.dropsIn crossing = false ∧ s.isQuiet = true ∧ s.store.keys = [numbered 4] ∧
      (∀ key, (s.store.get? key).isSome → key ∈ s.recency.keys) ∧
        Store.size s.store ≤ s.recency.capacity := by
  have hkept : small.dropsIn crossing = false := by decide
  have hquiet : (small.run crossing).isQuiet = true := by decide
  obtain ⟨-, htracks⟩ := run_tracks ⟨2, [], by decide⟩ "users" crossing
  exact ⟨hkept, hquiet, by decide, (htracks hkept).2 hquiet⟩

/-- The store is emptied; a value is put; only then the order of use is cleared. Two more values are
put afterwards. -/
def overlapping : List Event :=
  [.clear, .proceed 0, .put (numbered 1) .null] ++ finishing 1 ++ .proceed 0 ::
    .put (numbered 2) .null :: finishing 2 ++ .put (numbered 3) .null :: finishing 3

/-- Nothing is under way any longer, the first value is stored and not tracked, and there are three
entries where there is room for two. -/
theorem loses_track_of_put_within_clear :
    let s := small.run overlapping
    s.isQuiet = true ∧ (s.store.get? (numbered 1)).isSome ∧ numbered 1 ∉ s.recency.keys ∧
      s.recency.capacity < Store.size s.store := by
  decide

end Tracking
end SqlMapper
