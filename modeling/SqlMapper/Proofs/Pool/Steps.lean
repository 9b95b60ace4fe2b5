import Mathlib.Algebra.Order.Group.Multiset
import SqlMapper.Proofs.Pool.Transfers

/-!
Whatever happens in a scene, its inventory goes through a transfer. So what holds of the empty
inventory and is preserved by every transfer holds after every run.
-/

namespace SqlMapper

open Ledger

variable {ω : Type}

section Places

variable {α β : Type} {l : List α} {i : Nat} {a : α}

theorem coe_filterMap_of_getElem? (f : α → Option β) (h : l[i]? = some a) :
    (↑(l.filterMap f) : Multiset β) =
      (f a).elim ↑((l.eraseIdx i).filterMap f) (· ::ₘ ↑((l.eraseIdx i).filterMap f)) := by
  obtain ⟨hi, rfl⟩ := List.getElem?_eq_some_iff.mp h
  have hperm : l.Perm (l[i] :: l.eraseIdx i) := (List.getElem_cons_eraseIdx_perm hi).symm
  rw [Multiset.coe_eq_coe.mpr (hperm.filterMap f), List.filterMap_cons]
  cases f l[i] <;> rfl

theorem coe_filterMap_set (f : α → Option β) (h : l[i]? = some a) (a' : α) :
    (↑((l.set i a').filterMap f) : Multiset β) =
      (f a').elim ↑((l.eraseIdx i).filterMap f) (· ::ₘ ↑((l.eraseIdx i).filterMap f)) := by
  obtain ⟨hi, -⟩ := List.getElem?_eq_some_iff.mp h
  have hperm : (l.set i a').Perm (a' :: l.eraseIdx i) := List.set_perm_cons_eraseIdx hi a'
  rw [Multiset.coe_eq_coe.mpr (hperm.filterMap f), List.filterMap_cons]
  cases f a' <;> rfl

theorem coe_eq_cons_eraseIdx (h : l[i]? = some a) :
    (↑l : Multiset α) = a ::ₘ ↑(l.eraseIdx i) := by
  obtain ⟨hi, rfl⟩ := List.getElem?_eq_some_iff.mp h
  exact Multiset.coe_eq_coe.mpr (List.getElem_cons_eraseIdx_perm hi).symm

end Places

theorem Pool.foldl_invalidate (slots : List Slot) (p : Pool) :
    slots.foldl (fun p slot => p.invalidate slot.wrapper) p =
      { p with live := p.live.filter fun x => !(slots.map (·.wrapper)).contains x } := by
  -- On the slots, for any pool: the ones before have changed what is live.
  induction slots generalizing p with
  | nil => simp
  | cons slot slots ih =>
    rw [List.foldl_cons, ih]
    simp only [invalidate, List.filter_filter, List.map_cons, List.contains_cons]
    congr 2
    funext x
    rw [Bool.not_or, Bool.and_comm]
    rfl

/-- Tearing down closes everything that is in use or idle, and opens a new generation. -/
theorem Pool.tearDown_eq (p : Pool) :
    p.tearDown = (.wakeAll :: (p.active.reverse ++ p.idle.reverse).map .close,
      { p with
        idle := []
        active := []
        generation := p.generation + 1
        live := p.live.filter fun x => !((p.active ++ p.idle).map (·.wrapper)).contains x }) := by
  -- They are closed in reverse order, which makes no difference to who is live.
  have hsame (x : Nat) : ((p.active.reverse ++ p.idle.reverse).map (·.wrapper)).contains x =
      ((p.active ++ p.idle).map (·.wrapper)).contains x := by
    simp [List.contains_eq_mem]
  unfold tearDown detachAll
  dsimp only
  rw [foldl_invalidate]
  simp only [hsame]

namespace Scene

/-- Everything is taken out of a pool that differs from the one before in nothing that an inventory
shows, its limits apart. -/
theorem transfer_tearDown (s : Scene ω) (config : PoolConfig) (settings : ConnectionSettings)
    (tallies : Tallies) (dropped : Bool) :
    s.inventory.Transfer (s.tearDown { s.pool with
      config := config
      settings := settings
      tallies := tallies
      dropped := dropped }).inventory := by
  let chores : List Chore :=
    .wakeAll :: (s.pool.active.reverse ++ s.pool.idle.reverse).map .close
  have hchores : chores.filterMap (·.condemned?) =
      s.pool.active.reverse ++ s.pool.idle.reverse := by
    simp [chores, List.filterMap_map, Chore.condemned?]
  -- What is condemned anew is exactly what was in use or idle.
  have hcondemned :
      (↑(s.acquisitions.filterMap (·.condemned?) ++
        (s.chores ++ [chores]).flatten.filterMap (·.condemned?)) : Multiset Slot) =
      ↑s.condemned + ↑(s.pool.active ++ s.pool.idle) := by
    rw [List.flatten_append, List.filterMap_append, ← List.append_assoc, ← Multiset.coe_add]
    congr 1
    simp only [List.flatten_cons, List.flatten_nil, List.append_nil, hchores]
    exact Multiset.coe_eq_coe.mpr ((List.reverse_perm _).append (List.reverse_perm _))
  unfold tearDown
  rw [Pool.tearDown_eq]
  unfold inventory
  dsimp only [condemned]
  rw [hcondemned]
  exact .tearDown config.maxActive.toNat config.maxIdle.toNat

end Scene

theorem Acquisition.phase_of_result? {a : Acquisition} {r : Except Error Handle}
    (h : a.result? = some r) : a.phase = .done r := by
  unfold result? at h
  split at h
  · rename_i hphase
    rw [hphase, Option.some.inj h]
  · exact absurd h (by simp)

theorem Acquisition.handed?_of_result? {a : Acquisition} (h : a.result? = none) :
    a.handed? = none := by
  unfold handed?
  split
  · rename_i hphase
    rw [result?, hphase] at h
    exact absurd h (by simp)
  · rfl

namespace Scene

section

variable (s : Scene ω) {i : Nat} {a : Acquisition}

def otherCandidates (i : Nat) : Multiset Candidate :=
  ↑((s.acquisitions.eraseIdx i).filterMap (·.candidate?))

def otherCondemned (i : Nat) : Multiset Slot :=
  ↑((s.acquisitions.eraseIdx i).filterMap (·.condemned?)) +
    ↑(s.chores.flatten.filterMap (·.condemned?))

theorem inventory_of_getElem? (h : s.acquisitions[i]? = some a) (hover : a.result? = none) :
    s.inventory = a.inventory (s.otherCandidates i) (s.otherCondemned i)
      (s.handles.map fun h => (h.wrapper, h.physical)) s.calls s.pool s.ledger := by
  have hhanded := Acquisition.handed?_of_result? hover
  unfold inventory Acquisition.inventory candidates condemned otherCandidates otherCondemned
  rw [← Multiset.coe_add, coe_filterMap_of_getElem? _ h, coe_filterMap_of_getElem? _ h, hhanded]
  cases a.condemned? with
  | none => rfl
  | some slot => simp

/-- After its section an acquisition stands in its place again, or has left with what it got. -/
theorem inventory_put (h : s.acquisitions[i]? = some a) (a' : Acquisition) (p : Pool)
    (l : Ledger ω) :
    ({ s with pool := p, ledger := l }.put i a').inventory =
      a'.inventory (s.otherCandidates i) (s.otherCondemned i)
        (s.handles.map fun h => (h.wrapper, h.physical)) s.calls p l := by
  unfold put
  cases hresult : a'.result? with
  | none =>
    -- It goes on, in the same place.
    have hhanded := Acquisition.handed?_of_result? hresult
    unfold inventory Acquisition.inventory candidates condemned otherCandidates otherCondemned
    dsimp only
    rw [← Multiset.coe_add, coe_filterMap_set _ h, coe_filterMap_set _ h, hhanded]
    cases a'.condemned? with
    | none => rfl
    | some slot => simp
  | some r =>
    -- It is over: it has no slot any more, and a handle that it got joins the others.
    have hphase := Acquisition.phase_of_result? hresult
    unfold inventory Acquisition.inventory candidates condemned otherCandidates otherCondemned
    unfold Acquisition.candidate? Acquisition.condemned? Acquisition.handed?
    rw [hphase, ← Multiset.coe_add]
    cases r with
    | ok handle => simp
    | error e => rfl

end

theorem connection_ne_of_not_isBusy {s : Scene ω} {connection? : Option Nat}
    (h : connection?.any s.isBusy = false) :
    ∀ n ∈ connection?, ∀ c ∈ (s.calls : Multiset Ongoing), c.connection ≠ n := by
  intro n hn c hc heq
  obtain rfl : connection? = some n := hn
  have hbusy : s.isBusy n = true :=
    List.any_eq_true.mpr ⟨c, Multiset.mem_coe.mp hc, by simpa using heq⟩
  rw [Option.any_some, hbusy] at h
  exact absurd h (by simp)

theorem transfer_ask (s : Scene ω) (j : Nat) (call : Call) :
    s.inventory.Transfer (s.ask j call).inventory := by
  unfold ask
  cases hget : s.handles[j]? with
  | none => exact .same
  | some h =>
    dsimp only
    split
    · exact .same
    rename_i hready
    split
    · rename_i hvalid
      have hlive : h.wrapper ∈ s.pool.live := List.contains_iff_mem.mp hvalid
      have hhandle : (h.wrapper, h.physical) ∈
          s.handles.map fun h => (h.wrapper, h.physical) :=
        List.mem_map_of_mem (List.mem_of_getElem? hget)
      let c : Ongoing := ⟨h.wrapper, h.physical.connection, call⟩
      have hcalls : (↑(s.calls ++ [c]) : Multiset Ongoing) = c ::ₘ ↑s.calls :=
        Multiset.coe_eq_coe.mpr (List.perm_append_singleton _ _)
      unfold inventory
      dsimp only [candidates, condemned]
      rw [hcalls]
      refine .ask hhandle hlive ?_
      exact fun hclose => hready (.inl hclose)
    · exact .same

variable [Server ω]

theorem transfer_answer (s : Scene ω) (k : Nat) :
    s.inventory.Transfer (s.answer k).inventory := by
  unfold answer
  cases hget : s.calls[k]? with
  | none => exact .same
  | some c => exact .answer (coe_eq_cons_eraseIdx hget)

theorem transfer_goOn (s : Scene ω) (k : Nat) :
    s.inventory.Transfer (s.goOn k).inventory := by
  unfold goOn
  split
  · exact .same
  · exact .same
  rename_i chore rest hget
  dsimp only
  split
  · exact .same
  -- What the other operations have left to do stays the same.
  have hothers (left : List Chore) (chores : List (List Chore))
      (hperm : chores.Perm (left :: s.chores.eraseIdx k)) :
      (↑(s.acquisitions.filterMap (·.condemned?) ++ chores.flatten.filterMap (·.condemned?)) :
        Multiset Slot) = ↑(left.filterMap (·.condemned?)) +
          (↑(s.acquisitions.filterMap (·.condemned?)) +
            ↑((s.chores.eraseIdx k).flatten.filterMap (·.condemned?))) := by
    have hflat := Multiset.coe_eq_coe.mpr (hperm.flatten.filterMap (·.condemned?))
    rw [← Multiset.coe_add, hflat, List.flatten_cons, List.filterMap_append, ← Multiset.coe_add,
      add_left_comm]
  obtain ⟨hk, hchore⟩ := List.getElem?_eq_some_iff.mp hget
  have hbefore := hothers (chore :: rest) s.chores
    (hchore ▸ (List.getElem_cons_eraseIdx_perm hk).symm)
  have hafter := hothers rest (s.chores.set k rest) (List.set_perm_cons_eraseIdx hk rest)
  unfold inventory
  dsimp only [candidates, condemned]
  rw [hbefore, hafter]
  cases chore with
  | wakeAll => exact .same
  | close slot =>
    obtain ⟨es, hw, hclosed⟩ :=
      records_closeQuietly (n := slot.physical.connection) s.ledger
    dsimp only [Pool.doChore]
    rw [Inventory.of_written _ s.ledger _ _ _ _ hw.openings hw.entries]
    refine .close ?_ hw.about hclosed
    rfl

variable [Clock ω]

/-- A section of an acquisition, if it can be gone through at all: the acquisition is not over, has
the connection that it needs for itself, and has waited for as long as it had to. -/
theorem proceed_eq_put (s : Scene ω) {i : Nat} {a : Acquisition}
    (h : s.acquisitions[i]? = some a) : s.proceed i = s ∨
      a.result? = none ∧ a.connection?.any s.isBusy = false ∧
        ∃ l, a.sleep? s.pool s.ledger = some l ∧ s.proceed i =
          { s with
            pool := (a.step undisturbed s.pool l).2.1
            ledger := (a.step undisturbed s.pool l).2.2 }.put i (a.step undisturbed s.pool l).1 := by
  unfold proceed
  rw [h]
  dsimp only
  split
  · exact .inl rfl
  rename_i hready
  obtain ⟨hover, hbusy⟩ : a.result? = none ∧ a.connection?.any s.isBusy = false := by
    simpa using hready
  cases hsleep : a.sleep? s.pool s.ledger with
  | none => exact .inl rfl
  | some l => exact .inr ⟨hover, hbusy, l, rfl, rfl⟩

theorem transfer_proceed (s : Scene ω) (i : Nat) :
    s.inventory.Transfer (s.proceed i).inventory := by
  cases hget : s.acquisitions[i]? with
  | none =>
    unfold proceed
    rw [hget]
    exact .same
  | some a =>
    rcases s.proceed_eq_put hget with hsame | ⟨hover, hbusy, l, hsleep, hput⟩
    · rw [hsame]
      exact .same
    rw [hput, s.inventory_of_getElem? hget hover, s.inventory_put hget]
    -- Time may have passed, but nothing was written meanwhile.
    have hwritten : a.inventory (s.otherCandidates i) (s.otherCondemned i)
        (s.handles.map fun h => (h.wrapper, h.physical)) s.calls s.pool s.ledger =
        a.inventory (s.otherCandidates i) (s.otherCondemned i)
        (s.handles.map fun h => (h.wrapper, h.physical)) s.calls s.pool l := by
      unfold Acquisition.sleep? at hsleep
      split at hsleep
      · obtain ⟨t, -, rfl⟩ := Option.map_eq_some_iff.mp hsleep
        rfl
      · rw [Option.some.inj hsleep]
    rw [hwritten]
    exact a.transfer_step s.pool l _ _ _ _ hover (connection_ne_of_not_isBusy hbusy)

theorem map_set_returned {α : Type} {f : Handle → α} {handles : List Handle} {j : Nat} {h : Handle}
    (hget : handles[j]? = some h) (hf : f { h with returned := true } = f h) :
    (handles.set j { h with returned := true }).map f = handles.map f := by
  have hplace : (handles.map f)[j]? = some (f h) := by
    rw [List.getElem?_map, hget]
    rfl
  obtain ⟨hj, heq⟩ := List.getElem?_eq_some_iff.mp hplace
  rw [List.map_set, hf, ← heq]
  exact List.set_getElem_self hj

theorem transfer_giveBack (s : Scene ω) (j : Nat) :
    s.inventory.Transfer (s.giveBack j).inventory := by
  unfold giveBack
  cases hget : s.handles[j]? with
  | none => exact .same
  | some h =>
    dsimp only
    split
    · exact .same
    rename_i hready
    have hdone : ∀ c ∈ (s.calls : Multiset Ongoing), c.wrapper ≠ h.wrapper := by
      simpa using hready
    -- An inventory does not show which handles were given back.
    have hkept : (s.handles.set j { h with returned := true }).map
        (fun h => (h.wrapper, h.physical)) = s.handles.map fun h => (h.wrapper, h.physical) :=
      map_set_returned hget rfl
    have hself : s.handles.set j h = s.handles := by
      obtain ⟨hj, rfl⟩ := List.getElem?_eq_some_iff.mp hget
      exact List.set_getElem_self hj
    unfold Handle.release Handle.close
    dsimp only
    split
    · rw [hself]
      exact .same
    · unfold inventory
      dsimp only [candidates, condemned]
      rw [hkept]
      split
      · exact .same
      · exact s.pool.transfer_giveBack (Clock.read s.ledger).2 _ _ _ _ _ _ hdone

/-- Every event is a transfer of the inventory. -/
theorem transfer_step (s : Scene ω) (e : Event ω) :
    s.inventory.Transfer (s.step e).inventory := by
  cases e with
  | acquire username password =>
    dsimp only [step]
    split
    · exact .same
    -- An acquisition that begins has no slot yet.
    · have hcandidates (now : Instant) : (s.acquisitions ++
          [Acquisition.start username password now]).filterMap (·.candidate?) =
          s.candidates := by
        simp [candidates, Acquisition.start, Acquisition.candidate?]
      have hcondemned (now : Instant) : (s.acquisitions ++
          [Acquisition.start username password now]).filterMap (·.condemned?) =
          s.acquisitions.filterMap (·.condemned?) := by
        simp [Acquisition.start, Acquisition.condemned?]
      unfold inventory
      conv =>
        rhs
        simp only [candidates, condemned, hcandidates, hcondemned]
      exact .same
  | proceed i => exact s.transfer_proceed i
  | ask j call => exact s.transfer_ask j call
  | answer k => exact s.transfer_answer k
  | giveBack j => exact s.transfer_giveBack j
  | forceCloseAll =>
    dsimp only [step]
    split
    · exact .same
    · exact s.transfer_tearDown s.pool.config s.pool.settings s.pool.tallies s.pool.dropped
  | reconfigure config settings =>
    dsimp only [step, Pool.adopt]
    split
    · exact .same
    · cases config.validate with
      | error e => exact .same
      | ok u => exact s.transfer_tearDown config settings .zero s.pool.dropped
  | interrupt =>
    dsimp only [step]
    split
    · exact .same
    · have hcondemned : (s.chores ++ [[Chore.wakeAll]]).flatten.filterMap (·.condemned?) =
          s.chores.flatten.filterMap (·.condemned?) := by
        simp [Chore.condemned?]
      unfold inventory
      conv =>
        rhs
        simp only [condemned, hcondemned]
      exact .same
  | goOn k => exact s.transfer_goOn k
  | drop =>
    dsimp only [step]
    split
    · exact .same
    · exact s.transfer_tearDown s.pool.config s.pool.settings s.pool.tallies true
  | disturb change => exact .same

/-- What every transfer preserves is preserved by everything that can happen. -/
theorem run_preserves {I : Inventory → Prop} (htransfer : ∀ v v', I v → v.Transfer v' → I v')
    (s : Scene ω) (h : I s.inventory) (events : List (Event ω)) : I (s.run events).inventory := by
  unfold run
  -- On the events, for any scene whose inventory has the property.
  induction events generalizing s with
  | nil => exact h
  | cons e events ih => exact ih (s.step e) (htransfer _ _ h (s.transfer_step e))

/-- What holds of the inventory of a pool that nobody uses yet, and is preserved by every transfer,
holds after everything that can happen. -/
theorem run_induction {I : Inventory → Prop} (settings : ConnectionSettings) (config : PoolConfig)
    (server : ω) (hstart : I (start settings config server).inventory)
    (htransfer : ∀ v v', I v → v.Transfer v' → I v') (events : List (Event ω)) :
    I ((start settings config server).run events).inventory :=
  run_preserves htransfer (start settings config server) hstart events

end Scene
end SqlMapper
