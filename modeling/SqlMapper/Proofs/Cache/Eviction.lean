import Mathlib.Data.List.Nodup
import SqlMapper.Proofs.Cache.Contents

/-!
What a bounded cache over a store in memory keeps, compared with a history in which the keys in use
stand in the order of their last use. A new bound forgets the order but not the values.
-/

namespace SqlMapper

inductive CacheCall where
  | get (key : CacheKey)
  | put (key : CacheKey) (v : Value)
  | remove (key : CacheKey)
  | release (key : CacheKey)
  | clear
  | resize (size : Nat)

namespace Cache

variable {β : Type}

def unvalued (x : Outcome β Unit) : Outcome β (Option Value) :=
  (x.1.map fun _ => none, x.2)

variable [Store β]

def call (c : Cache β) : CacheCall → Option (Outcome β (Option Value))
  | .get key => c.get key
  | .put key v => some (unvalued (c.put key v))
  | .remove key => some (c.remove key)
  | .release key => some (unvalued (c.release key))
  | .clear => some (.ok none, c.clear)
  | .resize size => some (unvalued (c.resize size))

def callAll (calls : List CacheCall) (c : Cache β) : Option (Cache β) :=
  calls.foldlM (fun c call => (c.call call).map (·.2)) c

end Cache

inductive KeyEvent where
  | stored (key : CacheKey) (v : Value)
  | read (key : CacheKey)
  | evicted (key : CacheKey)
  | removed (key : CacheKey)
  | cleared
  | resized (capacity : Nat)

namespace KeyEvent

def uses (key : CacheKey) : KeyEvent → Bool
  | stored k _ | read k => k == key
  | evicted _ | removed _ | cleared | resized _ => false

def ends (key : CacheKey) : KeyEvent → Prop
  | stored k _ | evicted k | removed k => k = key
  | cleared => True
  | read _ | resized _ => False

def isResize : KeyEvent → Prop
  | resized _ => True
  | _ => False

end KeyEvent

abbrev KeyHistory := List KeyEvent

namespace KeyHistory

def capacity (start : Nat) : KeyHistory → Nat
  | [] => start
  | .resized n :: _ => n
  | _ :: h => capacity start h

/-- The keys in use, the one that was used last first. A key comes into use by being stored. -/
def order : KeyHistory → List CacheKey
  | [] => []
  | .stored key _ :: h => key :: (order h).filter (· != key)
  | .read key :: h => if key ∈ order h then key :: (order h).filter (· != key) else order h
  | .evicted key :: h | .removed key :: h => (order h).filter (· != key)
  | .cleared :: _ | .resized _ :: _ => []

def lastUse (h : KeyHistory) (key : CacheKey) : Nat := h.findIdx (·.uses key)

def Since (happens : KeyEvent → KeyHistory → Prop) (ends : KeyEvent → Prop) (h : KeyHistory) :
    Prop :=
  ∃ later e earlier, h = later ++ e :: earlier ∧ happens e earlier ∧ ∀ e' ∈ later, ¬ ends e'

/-- The value was stored for the key, and not replaced, evicted, removed or cleared since. -/
def Keeps (h : KeyHistory) (key : CacheKey) (v : Value) : Prop :=
  h.Since (fun e _ => e = .stored key v) (·.ends key)

/-- The key was kept at the last resize, and not stored anew, evicted, removed or cleared since. -/
def Outlasts (h : KeyHistory) (key : CacheKey) : Prop :=
  h.Since (fun e earlier => e.isResize ∧ ∃ v, Keeps earlier key v) fun e =>
    e.isResize ∨ e.ends key

/-- The history after a call. Of the keys in use those are evicted for which there is no room. -/
def record (start : Nat) (h : KeyHistory) : CacheCall → KeyHistory
  | .get key => .read key :: h
  | .put key v =>
    let h : KeyHistory := .stored key v :: h
    (h.order.drop (h.capacity start)).map .evicted ++ h
  | .remove key => .removed key :: h
  | .release _ => h
  | .clear => .cleared :: h
  | .resize size => if size = 0 then h else .resized size :: h

def ofCalls (start : Nat) (calls : List CacheCall) : KeyHistory :=
  calls.foldl (record start) []

variable {h : KeyHistory} {e : KeyEvent} {key : CacheKey}

theorem since_cons {happens : KeyEvent → KeyHistory → Prop} {ends : KeyEvent → Prop} :
    Since happens ends (e :: h) ↔ happens e h ∨ ¬ ends e ∧ Since happens ends h := by
  constructor
  · rintro ⟨later, e', earlier, heq, hhappens, hlater⟩
    cases later with
    | nil =>
      obtain ⟨rfl, rfl⟩ := List.cons.inj heq
      exact .inl hhappens
    | cons e₁ later =>
      obtain ⟨rfl, rfl⟩ := List.cons.inj heq
      obtain ⟨hfirst, hothers⟩ := List.forall_mem_cons.mp hlater
      exact .inr ⟨hfirst, later, e', earlier, rfl, hhappens, hothers⟩
  · rintro (hhappens | ⟨hfirst, later, e', earlier, rfl, hhappens, hothers⟩)
    · exact ⟨[], e, h, rfl, hhappens, nofun⟩
    · exact ⟨e :: later, e', earlier, rfl, hhappens, List.forall_mem_cons.mpr ⟨hfirst, hothers⟩⟩

theorem not_since_nil {happens : KeyEvent → KeyHistory → Prop} {ends : KeyEvent → Prop} :
    ¬ Since happens ends [] := by
  rintro ⟨later, e, earlier, heq, -⟩
  exact List.append_ne_nil_of_right_ne_nil later (List.cons_ne_nil e earlier) heq.symm

theorem keeps_cons {v : Value} :
    Keeps (e :: h) key v ↔ e = .stored key v ∨ ¬ e.ends key ∧ Keeps h key v :=
  since_cons

theorem outlasts_cons : Outlasts (e :: h) key ↔
    e.isResize ∧ (∃ v, Keeps h key v) ∨ ¬ (e.isResize ∨ e.ends key) ∧ Outlasts h key :=
  since_cons

theorem lastUse_cons_of_uses (h : KeyHistory) (he : e.uses key) : lastUse (e :: h) key = 0 := by
  rw [lastUse, List.findIdx_cons, he]
  rfl

theorem lastUse_cons_of_not_uses (h : KeyHistory) (he : ¬ e.uses key) :
    lastUse (e :: h) key = h.lastUse key + 1 := by
  rw [lastUse, List.findIdx_cons, Bool.eq_false_iff.mpr he]
  rfl

section Order

def Ranks (h : KeyHistory) (keys : List CacheKey) : Prop :=
  keys.Pairwise fun k k' => h.lastUse k < h.lastUse k'

variable {keys : List CacheKey}

theorem Ranks.nodup (hranks : h.Ranks keys) : keys.Nodup :=
  hranks.imp fun hlt heq => Nat.ne_of_lt hlt (congrArg h.lastUse heq)

/-- What uses none of the keys leaves their order as it is. -/
theorem Ranks.later (hranks : h.Ranks keys) (he : ∀ k ∈ keys, ¬ e.uses k) :
    Ranks (e :: h) keys := by
  refine List.Pairwise.imp_of_mem (fun hk hk' hlt => ?_) hranks
  rw [lastUse_cons_of_not_uses h (he _ hk), lastUse_cons_of_not_uses h (he _ hk')]
  omega

/-- A key that is used comes first. -/
theorem Ranks.used (hranks : h.Ranks keys) (he : e.uses key)
    (hothers : ∀ k ∈ keys, k ≠ key → ¬ e.uses k) :
    Ranks (e :: h) (key :: keys.filter (· != key)) := by
  have hrest : ∀ k ∈ keys.filter (· != key), ¬ e.uses k := by
    intro k hk
    obtain ⟨hmem, hne⟩ := List.mem_filter.mp hk
    exact hothers k hmem (by simpa using hne)
  refine List.pairwise_cons.mpr ⟨fun k hk => ?_, Ranks.later (hranks.filter _) hrest⟩
  rw [lastUse_cons_of_uses h he, lastUse_cons_of_not_uses h (hrest k hk)]
  omega

/-- The keys in use stand in the order of their last use. -/
theorem ranks_order (h : KeyHistory) : h.Ranks h.order := by
  -- On the history: each event uses the key that comes first, or none of those that stay.
  induction h with
  | nil => exact List.Pairwise.nil
  | cons e h ih =>
    cases e with
    | stored key v =>
      exact ih.used (by simp [KeyEvent.uses]) fun k _ hne => by simpa [KeyEvent.uses] using hne.symm
    | read key =>
      have hothers (k : CacheKey) (hne : k ≠ key) : ¬ (KeyEvent.read key).uses k := by
        simpa [KeyEvent.uses] using hne.symm
      rw [order]
      split
      · exact ih.used (by simp [KeyEvent.uses]) fun k _ => hothers k
      · rename_i hunused
        exact ih.later fun k hk => hothers k (ne_of_mem_of_not_mem hk hunused)
    | evicted key => exact Ranks.later (List.Pairwise.filter _ ih) fun k _ => nofun
    | removed key => exact Ranks.later (List.Pairwise.filter _ ih) fun k _ => nofun
    | cleared => exact List.Pairwise.nil
    | resized n => exact List.Pairwise.nil

theorem nodup_order (h : KeyHistory) : h.order.Nodup := (ranks_order h).nodup

end Order

/-- A key is kept exactly if it is in use or outlasts the last resize. -/
theorem exists_keeps_iff (h : KeyHistory) (key : CacheKey) :
    (∃ v, h.Keeps key v) ↔ key ∈ h.order ∨ h.Outlasts key := by
  induction h with
  | nil =>
    have hkeeps : ¬ ∃ v, Keeps [] key v := fun ⟨v, hv⟩ => not_since_nil hv
    have houtlasts : ¬ Outlasts [] key := not_since_nil
    simp [hkeeps, houtlasts, order]
  | cons e h ih =>
    simp only [keeps_cons, outlasts_cons]
    cases e with
    | stored k v =>
      by_cases hk : k = key
      · simp [order, hk]
      · simp [order, KeyEvent.ends, KeyEvent.isResize, hk, ih, Ne.symm hk]
    | read k =>
      have hmem : key ∈ order (.read k :: h) ↔ key ∈ order h := by
        rw [order]
        split
        · by_cases hk : key = k
          · simpa [hk]
          · simp [hk]
        · rfl
      simp [hmem, KeyEvent.ends, KeyEvent.isResize, ih]
    | evicted k =>
      by_cases hk : k = key
      · simp [order, KeyEvent.ends, KeyEvent.isResize, hk]
      · simp [order, KeyEvent.ends, KeyEvent.isResize, hk, ih, Ne.symm hk]
    | removed k =>
      by_cases hk : k = key
      · simp [order, KeyEvent.ends, KeyEvent.isResize, hk]
      · simp [order, KeyEvent.ends, KeyEvent.isResize, hk, ih, Ne.symm hk]
    | cleared => simp [order, KeyEvent.ends, KeyEvent.isResize]
    | resized n => simp [order, KeyEvent.ends, KeyEvent.isResize]

def Describes (h : KeyHistory) (s : MapStore) : Prop :=
  ∀ key v, s.get? key = some v ↔ h.Keeps key v

namespace Describes

variable {s : MapStore}

theorem stored (hs : h.Describes s) (key : CacheKey) (v : Value) :
    Describes (.stored key v :: h) (s.insert key v) := by
  intro k w
  rw [MapStore.get?_insert, keeps_cons]
  by_cases hk : k = key
  · simp [hk, KeyEvent.ends]
  · simp [hk, KeyEvent.ends, Ne.symm hk, hs k w]

theorem erased (hs : h.Describes s) (key : CacheKey) (hends : ∀ k, e.ends k ↔ key = k)
    (hstores : ∀ k v, e ≠ .stored k v) : Describes (e :: h) (s.erase key) := by
  intro k w
  rw [MapStore.get?_erase, keeps_cons, hends, or_iff_right (hstores k w)]
  by_cases hk : k = key
  · simp [hk]
  · simp [hk, Ne.symm hk, hs k w]

theorem kept (hs : h.Describes s) (hends : ∀ k, ¬ e.ends k) (hstores : ∀ k v, e ≠ .stored k v) :
    Describes (e :: h) s := by
  intro k w
  rw [keeps_cons, or_iff_right (hstores k w), hs k w]
  exact (and_iff_right (hends k)).symm

theorem isSome_iff (hs : h.Describes s) (key : CacheKey) :
    (s.get? key).isSome ↔ key ∈ h.order ∨ h.Outlasts key := by
  rw [← exists_keeps_iff, Option.isSome_iff_exists]
  exact exists_congr (hs key)

end Describes

end KeyHistory

namespace Recency

variable {r : Recency CacheKey} {key : CacheKey}

theorem push_of_room (hnodup : r.keys.Nodup) (hroom : key ∈ r.keys ∨ r.keys.length < r.capacity) :
    ∃ r', r.push key = (none, r') ∧ r'.keys = key :: r.keys.filter (· != key) ∧
      r'.capacity = r.capacity ∧ r'.keys.length ≤ max r.keys.length r.capacity := by
  unfold push
  by_cases hused : key ∈ r.keys
  · rw [if_pos hused, ← hnodup.erase_eq_filter key]
    refine ⟨_, rfl, rfl, rfl, ?_⟩
    have hpos : 0 < r.keys.length := List.length_pos_of_mem hused
    simp only [List.length_cons, List.length_erase_of_mem hused]
    omega
  · have hlt : r.keys.length < r.capacity := hroom.resolve_left hused
    have hothers : r.keys.filter (· != key) = r.keys :=
      List.filter_eq_self.mpr fun k hk => bne_iff_ne.mpr (ne_of_mem_of_not_mem hk hused)
    rw [if_neg hused, if_pos hlt, hothers]
    refine ⟨_, rfl, rfl, rfl, ?_⟩
    simp only [List.length_cons]
    omega

/-- Without room for a new key, the key that was used the longest ago goes. -/
theorem push_of_full (hnew : key ∉ r.keys) (hfull : r.keys.length = r.capacity) :
    ∃ others eldest r', r.keys = others ++ [eldest] ∧ r.push key = (some eldest, r') ∧
      r'.keys = key :: others ∧ r'.capacity = r.capacity := by
  have hpos : 0 < r.keys.length := hfull ▸ r.positive
  obtain ⟨others, eldest, hkeys⟩ : ∃ others eldest, r.keys = others ++ [eldest] := by
    rcases List.eq_nil_or_concat r.keys with hnil | ⟨others, eldest, hkeys⟩
    · rw [hnil] at hpos
      exact absurd hpos (Nat.lt_irrefl 0)
    · exact ⟨others, eldest, by rw [hkeys, List.concat_eq_append]⟩
  refine ⟨others, eldest, { r with keys := key :: others }, hkeys, ?_, rfl, rfl⟩
  rw [push, if_neg hnew, if_neg (by omega), hkeys, List.getLast?_concat, List.dropLast_concat]

end Recency

namespace Cache

open KeyHistory

variable {r : Recency CacheKey} {s : MapStore} {key : CacheKey}

theorem put_bounded_store (r : Recency CacheKey) (s : MapStore) (key : CacheKey) (v : Value) :
    (Cache.bounded r (.store s)).put key v =
      (.ok (), .bounded (r.push key).2 (.store ((r.push key).1.elim (s.insert key v)
        (s.insert key v).erase))) := by
  have hstored : (Cache.store s).put key v = (.ok (), .store (s.insert key v)) := rfl
  rw [put, hstored]
  dsimp only
  rcases r.push key with ⟨_ | eldest, r'⟩
  · rfl
  · rfl

structure Follows (start : Nat) (h : KeyHistory) (r : Recency CacheKey) (s : MapStore) : Prop where
  keys : r.keys = h.order
  capacity : r.capacity = h.capacity start
  within : r.keys.length ≤ r.capacity
  entries : h.Describes s

namespace Follows

variable {start : Nat} {h : KeyHistory}

theorem nodup (hf : Follows start h r s) : r.keys.Nodup := hf.keys ▸ h.nodup_order

theorem get (hf : Follows start h r s) (key : CacheKey) :
    Follows start (.read key :: h) (r.touch key) s := by
  have hentries : Describes (.read key :: h) s := hf.entries.kept (fun _ => nofun) nofun
  unfold Recency.touch
  by_cases hused : key ∈ r.keys
  · rw [if_pos hused]
    refine ⟨?_, hf.capacity, ?_, hentries⟩
    · rw [order, if_pos (hf.keys ▸ hused), hf.nodup.erase_eq_filter, hf.keys]
    · have hpos : 0 < r.keys.length := List.length_pos_of_mem hused
      have hwithin := hf.within
      simp only [List.length_cons, List.length_erase_of_mem hused]
      omega
  · rw [if_neg hused]
    refine ⟨?_, hf.capacity, hf.within, hentries⟩
    rw [order, if_neg (hf.keys ▸ hused), hf.keys]

/-- A put for which there is room stores its value and removes nothing. -/
theorem put_of_room (hf : Follows start h r s) (v : Value)
    (hroom : key ∈ r.keys ∨ r.keys.length < r.capacity) :
    ∃ r', (Cache.bounded r (.store s)).put key v =
        (.ok (), .bounded r' (.store (s.insert key v))) ∧
      Follows start (record start h (.put key v)) r' (s.insert key v) := by
  obtain ⟨r', hpush, hkeys, hcapacity, hlength⟩ := Recency.push_of_room hf.nodup hroom
  have hwithin : r'.keys.length ≤ r'.capacity := by
    have hbefore := hf.within
    omega
  have horder : order (.stored key v :: h) = r'.keys := by rw [order, hkeys, hf.keys]
  have hrecord : record start h (.put key v) = .stored key v :: h := by
    have hnone : (order (.stored key v :: h)).drop (h.capacity start) = [] := by
      refine List.drop_eq_nil_of_le ?_
      rwa [horder, ← hf.capacity, ← hcapacity]
    simp only [record, KeyHistory.capacity, hnone]
    rfl
  refine ⟨r', ?_, ?_⟩
  · rw [put_bounded_store, hpush]
    rfl
  · rw [hrecord]
    exact ⟨horder.symm, hcapacity.trans hf.capacity, hwithin, hf.entries.stored key v⟩

/-- A put of a new key into a full cache removes the key whose last use is longest ago. -/
theorem put_of_full (hf : Follows start h r s) (v : Value) (hnew : key ∉ r.keys)
    (hfull : r.keys.length = r.capacity) :
    ∃ others eldest r', r.keys = others ++ [eldest] ∧
      (Cache.bounded r (.store s)).put key v =
        (.ok (), .bounded r' (.store ((s.insert key v).erase eldest))) ∧
      Follows start (record start h (.put key v)) r' ((s.insert key v).erase eldest) := by
  obtain ⟨others, eldest, r', hkeys, hpush, hkeys', hcapacity⟩ := Recency.push_of_full hnew hfull
  have hnodup : (key :: (others ++ [eldest])).Nodup :=
    List.nodup_cons.mpr ⟨hkeys ▸ hnew, hkeys ▸ hf.nodup⟩
  have horder : order (.stored key v :: h) = key :: (others ++ [eldest]) := by
    have hothers : r.keys.filter (· != key) = r.keys :=
      List.filter_eq_self.mpr fun k hk => bne_iff_ne.mpr (ne_of_mem_of_not_mem hk hnew)
    rw [order, ← hf.keys, hothers, hkeys]
  have hlength : (key :: others).length = h.capacity start := by
    rw [← hf.capacity, ← hfull, hkeys, List.length_append]
    rfl
  -- One key is too many, the last one.
  have hrecord : record start h (.put key v) = .evicted eldest :: .stored key v :: h := by
    have hdrop : (order (.stored key v :: h)).drop (h.capacity start) = [eldest] := by
      rw [horder, ← List.cons_append, List.drop_left' hlength]
    simp only [record, KeyHistory.capacity, hdrop]
    rfl
  refine ⟨others, eldest, r', hkeys, ?_, ?_⟩
  · rw [put_bounded_store, hpush]
    rfl
  · rw [hrecord]
    refine ⟨?_, hcapacity.trans hf.capacity, ?_, ?_⟩
    · have hgone : eldest ∉ key :: others := by
        rw [← List.cons_append] at hnodup
        exact fun hmem => (List.nodup_append.mp hnodup).2.2 eldest hmem eldest
          (List.mem_singleton_self _) rfl
      have hstay : (key :: others).filter (· != eldest) = key :: others :=
        List.filter_eq_self.mpr fun k hk => bne_iff_ne.mpr (ne_of_mem_of_not_mem hk hgone)
      rw [order, horder, hkeys', ← List.cons_append, List.filter_append, hstay]
      simp
    · exact Nat.le_of_eq (by rw [hkeys', hlength, hcapacity, hf.capacity])
    · exact (hf.entries.stored key v).erased eldest (fun _ => Iff.rfl) nofun

theorem remove (hf : Follows start h r s) (key : CacheKey) :
    Follows start (.removed key :: h) (r.forget key) (s.erase key) := by
  have hkeys : (r.forget key).keys = r.keys.filter (· != key) := hf.nodup.erase_eq_filter key
  refine ⟨?_, hf.capacity, ?_, hf.entries.erased key (fun _ => Iff.rfl) nofun⟩
  · rw [hkeys, order, hf.keys]
  · rw [hkeys]
    exact Nat.le_trans (List.length_filter_le _ _) hf.within

theorem clear (hf : Follows start h r s) (id : String) :
    Follows start (.cleared :: h) r.clear (MapStore.empty id) := by
  refine ⟨rfl, hf.capacity, Nat.zero_le _, fun key v => ?_⟩
  rw [keeps_cons]
  simp [MapStore.get?, MapStore.empty, KeyEvent.ends]

theorem resize (hf : Follows start h r s) {size : Nat} (hpos : 0 < size) :
    Follows start (.resized size :: h) ⟨size, [], hpos⟩ s :=
  ⟨rfl, rfl, Nat.zero_le _, hf.entries.kept (fun _ => nofun) nofun⟩

/-- A call goes with what the history records of it. -/
theorem call (hf : Follows start h r s) (call : CacheCall) :
    ∃ answer r' s', (Cache.bounded r (.store s)).call call =
        some (answer, .bounded r' (.store s')) ∧
      Follows start (record start h call) r' s' := by
  cases call with
  | get key => exact ⟨_, _, _, rfl, hf.get key⟩
  | put key v =>
    by_cases hroom : key ∈ r.keys ∨ r.keys.length < r.capacity
    · obtain ⟨r', hput, hf'⟩ := hf.put_of_room v hroom
      exact ⟨.ok none, r', _, by rw [Cache.call, hput]; rfl, hf'⟩
    · obtain ⟨hnew, hfull⟩ := not_or.mp hroom
      have hwithin := hf.within
      obtain ⟨others, eldest, r', -, hput, hf'⟩ := hf.put_of_full v hnew (by omega)
      exact ⟨.ok none, r', _, by rw [Cache.call, hput]; rfl, hf'⟩
  | remove key => exact ⟨_, _, _, rfl, hf.remove key⟩
  | release key => exact ⟨_, _, _, rfl, hf⟩
  | clear => exact ⟨_, _, _, rfl, hf.clear s.id⟩
  | resize size =>
    rw [record]
    by_cases hzero : size = 0
    -- A bound that leaves no room is refused.
    · subst hzero
      exact ⟨_, r, s, rfl, by rwa [if_pos rfl]⟩
    · have hpos : 0 < size := Nat.pos_of_ne_zero hzero
      refine ⟨.ok none, ⟨size, [], hpos⟩, s, ?_, by rw [if_neg hzero]; exact hf.resize hpos⟩
      rw [Cache.call, Cache.resize, Recency.ofSize, dif_pos hpos]
      rfl

theorem callAll (hf : Follows start h r s) (calls : List CacheCall) :
    ∃ r' s', (Cache.bounded r (.store s)).callAll calls = some (.bounded r' (.store s')) ∧
      Follows start (calls.foldl (record start) h) r' s' := by
  -- On the calls, after any history.
  induction calls generalizing h r s with
  | nil => exact ⟨r, s, rfl, hf⟩
  | cons call calls ih =>
    obtain ⟨answer, r₁, s₁, hcall, hf₁⟩ := hf.call call
    obtain ⟨r', s', hrun, hf'⟩ := ih hf₁
    refine ⟨r', s', ?_, hf'⟩
    rw [Cache.callAll, List.foldlM_cons, hcall]
    exact hrun

end Follows

structure Remembers (start : Nat) (h : KeyHistory) (r : Recency CacheKey) (s : MapStore) :
    Prop where
  tracked : r.keys = h.order
  ranked : r.keys.Pairwise fun key key' => h.lastUse key < h.lastUse key'
  distinct : r.keys.Nodup
  bounded : r.keys.length ≤ h.capacity start
  capacity : r.capacity = h.capacity start
  stored : ∀ key, (s.get? key).isSome ↔ key ∈ r.keys ∨ h.Outlasts key
  /-- A look answers what was stored last and not evicted, removed or cleared since. It deletes
  nothing. -/
  get : ∀ key, ∃ found r', (Cache.bounded r (.store s)).get key =
      some (.ok found, .bounded r' (.store s)) ∧ ∀ v, found = some v ↔ h.Keeps key v
  /-- A value is stored. For a key that is not tracked, when there is no room, exactly one entry is
  deleted: that of the tracked key whose last use is the longest ago. Otherwise none is. -/
  put : ∀ key v, ∃ r' s', (Cache.bounded r (.store s)).put key v =
      (.ok (), .bounded r' (.store s')) ∧ s'.get? key = some v ∧
    if key ∉ r.keys ∧ r.keys.length = r.capacity then
      ∃ eldest ∈ r.keys, (∀ k ∈ r.keys, k ≠ eldest → h.lastUse k < h.lastUse eldest) ∧
        (s.get? eldest).isSome ∧
        ∀ k, k ≠ key → s'.get? k = if k = eldest then none else s.get? k
    else ∀ k, k ≠ key → s'.get? k = s.get? k

namespace Follows

variable {start : Nat} {h : KeyHistory}

/-- A put deletes one key at most: the one whose last use is longest ago, if there is no room for a
new key. -/
theorem put_deletes (hf : Follows start h r s) (key : CacheKey) (v : Value) :
    ∃ r' s', (Cache.bounded r (.store s)).put key v = (.ok (), .bounded r' (.store s')) ∧
      s'.get? key = some v ∧
      if key ∉ r.keys ∧ r.keys.length = r.capacity then
        ∃ eldest ∈ r.keys, (∀ k ∈ r.keys, k ≠ eldest → h.lastUse k < h.lastUse eldest) ∧
          (s.get? eldest).isSome ∧
          ∀ k, k ≠ key → s'.get? k = if k = eldest then none else s.get? k
      else ∀ k, k ≠ key → s'.get? k = s.get? k := by
  split
  · rename_i hevicts
    obtain ⟨hnew, hfull⟩ := hevicts
    obtain ⟨others, eldest, r', hkeys, hput, -⟩ := hf.put_of_full v hnew hfull
    have hmem : eldest ∈ r.keys := by
      rw [hkeys]
      exact List.mem_append_right others (List.mem_singleton_self eldest)
    have hne : key ≠ eldest := fun heq => hnew (heq ▸ hmem)
    refine ⟨r', _, hput, ?_, eldest, hmem, fun k hk hother => ?_, ?_, fun k hk => ?_⟩
    · rw [MapStore.get?_erase, MapStore.get?_insert, if_neg hne, if_pos rfl]
    -- The last of the keys in use is the one whose last use is the longest ago.
    · have hranks : h.Ranks (others ++ [eldest]) := by
        rw [← hkeys, hf.keys]
        exact h.ranks_order
      rw [hkeys] at hk
      rcases List.mem_append.mp hk with hk | hk
      · exact (List.pairwise_append.mp hranks).2.2 k hk eldest (List.mem_singleton_self eldest)
      · exact absurd (List.mem_singleton.mp hk) hother
    · exact (hf.entries.isSome_iff eldest).mpr (.inl (hf.keys ▸ hmem))
    · rw [MapStore.get?_erase, MapStore.get?_insert, if_neg hk]
  · rename_i hkeeps
    have hwithin := hf.within
    have hroom : key ∈ r.keys ∨ r.keys.length < r.capacity := by
      by_cases hused : key ∈ r.keys
      · exact .inl hused
      · have hfull : r.keys.length ≠ r.capacity := fun heq => hkeeps ⟨hused, heq⟩
        exact .inr (by omega)
    obtain ⟨r', hput, -⟩ := hf.put_of_room v hroom
    refine ⟨r', _, hput, ?_, fun k hk => ?_⟩
    · rw [MapStore.get?_insert, if_pos rfl]
    · rw [MapStore.get?_insert, if_neg hk]

/-- A cache that follows its history has stored just what the history says. -/
theorem remembers (hf : Follows start h r s) : Remembers start h r s where
  tracked := hf.keys
  ranked := by
    rw [hf.keys]
    exact h.ranks_order
  distinct := hf.nodup
  bounded := hf.capacity ▸ hf.within
  capacity := hf.capacity
  stored key := by
    rw [hf.keys]
    exact hf.entries.isSome_iff key
  get key := ⟨s.get? key, r.touch key, rfl, fun v => hf.entries key v⟩
  put := hf.put_deletes

end Follows

/-- A bounded cache is a map that remembers the keys that were used last. After any calls it has the
keys in use in the order of their last use, distinct and within the bound, and stores these and what
outlasts the last resize; a look finds what the history of the calls keeps, and a put deletes at
most the entry of the key that was used the longest ago. -/
theorem callAll_remembers (hr : r.keys = []) (id : String) (calls : List CacheCall) :
    ∃ r' s', (Cache.bounded r (.store (MapStore.empty id))).callAll calls =
        some (.bounded r' (.store s')) ∧
      Remembers r.capacity (ofCalls r.capacity calls) r' s' := by
  have hstart : Follows r.capacity [] r (MapStore.empty id) := by
    refine ⟨hr, rfl, ?_, fun key v => ?_⟩
    · rw [hr]
      exact Nat.zero_le _
    · have hnothing : ¬ Keeps [] key v := not_since_nil
      simp [hnothing, MapStore.get?, MapStore.empty]
  obtain ⟨r', s', hrun, hf⟩ := hstart.callAll calls
  exact ⟨r', s', hrun, hf.remembers⟩

/-- Of three keys with room for two the one goes that was not asked for again, and the other ones
are stored but no longer in use after there is room for one only. -/
theorem remembers_resized :
    let r : Recency CacheKey := ⟨2, [], by decide⟩
    let key (n : Int64) : CacheKey := ⟨[.int n]⟩
    let calls : List CacheCall := [.put (key 1) .null, .put (key 2) .null, .get (key 1),
      .put (key 3) .null, .resize 1, .put (key 4) .null]
    r.keys = [] ∧ ∃ r' s', (Cache.bounded r (.store (MapStore.empty "t"))).callAll calls =
        some (.bounded r' (.store s')) ∧
      Remembers r.capacity (ofCalls r.capacity calls) r' s' ∧ r'.keys = [key 4] := by
  intro r key calls
  have hempty : r.keys = [] := rfl
  obtain ⟨r', s', hrun, hremembers⟩ := callAll_remembers hempty "t" calls
  refine ⟨hempty, r', s', hrun, hremembers, ?_⟩
  rw [hremembers.tracked]
  decide

end Cache
end SqlMapper
