import SqlMapper.Proofs.Pool.Capacity
import SqlMapper.Proofs.Pool.Fairness

/-!
What was torn down never comes back. A candidate that is being checked is in neither list when
everything is taken out of a pool; at the end of its check the generations are compared.
-/

namespace SqlMapper

open Ledger

namespace Inventory

/-- The connection belongs to a slot that is in use, idle, or a candidate that was chosen since
everything was torn down for the last time. -/
def Serves (v : Inventory) (n : Nat) : Prop :=
  (∃ slot ∈ v.active, slot.physical.connection = n) ∨
    (∃ slot ∈ v.idle, slot.physical.connection = n) ∨
    ∃ c ∈ v.candidates, c.generation = v.generation ∧ c.slot.physical.connection = n

-- Nothing serves that was opened before the opening `n`, and nothing of that kind was handed out
-- after the first `k` handles.
structure IsRidOf (n k : Nat) (v : Inventory) : Prop where
  opened : n ≤ v.openings.length
  handed : k ≤ v.handles.length
  serves : ∀ m, v.Serves m → n ≤ m
  later : ∀ h ∈ v.handles.drop k, n ≤ h.2.connection

variable {v v' : Inventory} {n k : Nat}

/-- What serves after a transfer has served before, or was opened by it. -/
theorem Transfer.serves (ht : v.Transfer v') (hf : v.Fits) :
    ∀ n, v'.Serves n → v.Serves n ∨ n = v.openings.length := by
  -- No candidate was chosen at a generation that has only begun.
  have hpresent : ∀ c ∈ v.candidates, c.generation = v'.generation → c.generation = v.generation :=
    fun c hc hnow => le_antisymm (hf.past c hc) (hnow ▸ ht.generation_le)
  exact ht.has hpresent (fun _ _ _ _ hmem hnow => hpresent _ hmem hnow) fun _ _ => rfl

/-- What a scene is rid of does not come back by a transfer. -/
theorem IsRidOf.transfer (h : IsRidOf n k v) (hf : v.Fits) (ht : v.Transfer v') :
    IsRidOf n k v' := by
  have hopened : v.openings.length ≤ v'.openings.length := ht.openings_grow.length_le
  have hhanded : v.handles.length ≤ v'.handles.length := ht.handles_grow.length_le
  have hserves : ∀ m, v'.Serves m → n ≤ m := by
    intro m hm
    rcases ht.serves hf m hm with hm | rfl
    · exact h.serves m hm
    · exact h.opened
  refine ⟨le_trans h.opened hopened, le_trans h.handed hhanded, hserves, ?_⟩
  rcases ht.handles with hsame | ⟨slot, hslot, hnew⟩
  · rw [hsame]
    exact h.later
  -- What is handed out is in use from then on, so it serves.
  · rw [hnew, List.drop_append_of_le_length h.handed]
    intro hd hmem
    rcases List.mem_append.mp hmem with hmem | hmem
    · exact h.later hd hmem
    · rw [List.mem_singleton.mp hmem]
      exact hserves _ (has_of_active hslot)

end Inventory

namespace Scene

variable {ω : Type}

def tearsDown (s : Scene ω) : Event ω → Bool
  | .forceCloseAll => !s.pool.dropped
  | .reconfigure config settings => !s.pool.dropped && (s.pool.adopt config settings).toBool
  | .drop => !s.pool.dropped && s.isAtRest
  | _ => false

theorem isRidOf_tearDown {s : Scene ω} (hf : s.inventory.Fits) (p : Pool)
    (hgeneration : p.generation = s.pool.generation) :
    (s.tearDown p).inventory.IsRidOf s.ledger.openings.length s.handles.length := by
  have hhandles : (s.tearDown p).inventory.handles.length = s.handles.length := List.length_map _
  refine ⟨le_refl _, hhandles.ge, ?_, ?_⟩
  · unfold tearDown
    rw [Pool.tearDown_eq]
    refine Inventory.forall_has ?_ ?_ ?_
    · exact fun slot hslot => absurd hslot List.not_mem_nil
    · exact fun slot hslot => absurd hslot List.not_mem_nil
    -- A candidate that is being checked meanwhile is of an earlier generation.
    · intro c hc hnew
      have hpast : c.generation ≤ s.pool.generation := hf.past c hc
      have hnew' : c.generation = p.generation + 1 := hnew
      omega
  · intro h hh
    rw [List.drop_eq_nil_of_le hhandles.le] at hh
    exact absurd hh List.not_mem_nil

theorem handed_of_drop {s : Scene ω} {k : Nat} {h : Handle} (hh : h ∈ s.handles.drop k) :
    (h.wrapper, h.physical) ∈ s.inventory.handles.drop k := by
  change _ ∈ (s.handles.map fun h => (h.wrapper, h.physical)).drop k
  rw [← List.map_drop]
  exact List.mem_map_of_mem hh

variable [Server ω] [Clock ω]

/-- An event that tears down rids the scene of every connection that was opened until then. -/
theorem isRidOf_of_tearsDown {s : Scene ω} (hf : s.inventory.Fits) {e : Event ω}
    (he : s.tearsDown e = true) :
    (s.step e).inventory.IsRidOf s.ledger.openings.length s.handles.length := by
  cases e with
  | forceCloseAll =>
    have hthere : s.pool.dropped = false := by simpa [tearsDown] using he
    rw [step, hthere]
    exact isRidOf_tearDown hf _ rfl
  | reconfigure config settings =>
    obtain ⟨hthere, hadopt⟩ : s.pool.dropped = false ∧
        (s.pool.adopt config settings).toBool = true := by
      simpa [tearsDown] using he
    rw [step, hthere]
    unfold Pool.adopt at hadopt ⊢
    cases hvalidate : config.validate with
    | error e =>
      rw [hvalidate] at hadopt
      exact absurd hadopt (by simp [Except.map, Except.toBool])
    | ok u => exact isRidOf_tearDown hf _ rfl
  | drop =>
    obtain ⟨hthere, hrest⟩ : s.pool.dropped = false ∧ s.isAtRest = true := by
      simpa [tearsDown] using he
    rw [step, hthere, hrest]
    exact isRidOf_tearDown hf _ rfl
  | _ => exact absurd he (by simp [tearsDown])

theorem isRidOf_run {s : Scene ω} {n k : Nat} (hf : s.inventory.Fits)
    (h : s.inventory.IsRidOf n k) (later : List (Event ω)) :
    (s.run later).inventory.IsRidOf n k := by
  -- Both are preserved together: without the limits, a candidate could be of any generation.
  have hboth : (s.run later).inventory.Fits ∧ (s.run later).inventory.IsRidOf n k :=
    run_preserves (I := fun v => v.Fits ∧ v.IsRidOf n k)
      (fun _ _ h ht => ⟨h.1.transfer ht, h.2.transfer h.1 ht⟩) s ⟨hf, h⟩ later
  exact hboth.2

/-- Nothing is handed out on which close was called. -/
theorem isClosed_eq_false_of_handed {s : Scene ω} (hs : s.inventory.Orderly) {e : Event ω}
    {h : Handle} (hh : h ∈ (s.step e).handles.drop s.handles.length) :
    isClosed h.physical.connection (s.step e).ledger.entries = false := by
  have ht : s.inventory.Transfer (s.step e).inventory := s.transfer_step e
  have hmem : (h.wrapper, h.physical) ∈ (s.step e).inventory.handles.drop s.handles.length :=
    handed_of_drop hh
  have hlength : s.inventory.handles.length = s.handles.length := List.length_map _
  rcases ht.handles with hsame | ⟨slot, hslot, hnew⟩
  · rw [hsame, List.drop_eq_nil_of_le hlength.le] at hmem
    exact absurd hmem List.not_mem_nil
  -- What is handed out is in use from then on, and what is in use was never closed.
  · rw [hnew, List.drop_append_of_le_length hlength.ge, List.drop_eq_nil_of_le hlength.le] at hmem
    have hphysical : h.physical = slot.physical := congrArg Prod.snd (List.mem_singleton.mp hmem)
    rw [hphysical]
    exact (hs.transfer ht).fair.isClosed_eq_false (Inventory.has_of_active hslot)

/-- Tearing down is final. Whatever went on meanwhile, and whatever happens later, no connection
that was opened before is ever in use again, idle, or handed out. Apart from that, nothing is handed
out on which close was called. -/
theorem run_tears_down_for_good (settings : ConnectionSettings) (config : PoolConfig) (server : ω)
    (events : List (Event ω)) (e : Event ω) :
    let s := (start settings config server).run events
    (s.tearsDown e = true → ∀ later, ∀ n < s.ledger.openings.length,
      let s' := (s.step e).run later
      (∀ slot ∈ s'.pool.active ++ s'.pool.idle, slot.physical.connection ≠ n) ∧
        ∀ h ∈ s'.handles.drop s.handles.length, h.physical.connection ≠ n) ∧
    ∀ h ∈ (s.step e).handles.drop s.handles.length,
      isClosed h.physical.connection (s.step e).ledger.entries = false := by
  intro s
  have hfits : s.inventory.Fits :=
    run_induction settings config server (fits_start settings config server)
      (fun _ _ => Inventory.Fits.transfer) events
  have horderly : s.inventory.Orderly := orderly_run settings config server events
  refine ⟨?_, fun h hh => isClosed_eq_false_of_handed horderly hh⟩
  intro he later n hn s'
  have hrid : s'.inventory.IsRidOf s.ledger.openings.length s.handles.length :=
    isRidOf_run (hfits.transfer (s.transfer_step e)) (isRidOf_of_tearsDown hfits he) later
  refine ⟨?_, ?_⟩
  · intro slot hslot heq
    have hserves : s'.inventory.Serves slot.physical.connection := by
      rcases List.mem_append.mp hslot with hslot | hslot
      · exact Inventory.has_of_active hslot
      · exact Inventory.has_of_idle hslot
    have hle := hrid.serves _ hserves
    omega
  · intro h hh heq
    have hle : s.ledger.openings.length ≤ h.physical.connection :=
      hrid.later _ (handed_of_drop hh)
    omega

/-- A connection came back and is about to be checked for the next holder. -/
def rechecking : List (Event Willing) := acquiring ++ [.giveBack 0, .acquire none none, .proceed 0]

def replacing : List (Event Willing) := List.replicate 11 (.proceed 0)

/-- A connection that is being checked when everything is torn down is not handed out; a new one
is, which nobody has closed. -/
theorem tears_down_checked :
    let s := narrow.run rechecking
    let s' := (s.step .forceCloseAll).run replacing
    let t := narrow.run (rechecking ++ .forceCloseAll :: replacing)
    s.candidates.map (·.slot.physical.connection) = [0] ∧
      ((∀ slot ∈ s'.pool.active ++ s'.pool.idle, slot.physical.connection ≠ 0) ∧
        ∀ h ∈ s'.handles.drop s.handles.length, h.physical.connection ≠ 0) ∧
      ∃ h ∈ (t.step (.proceed 0)).handles.drop t.handles.length, h.physical.connection = 1 ∧
        isClosed h.physical.connection (t.step (.proceed 0)).ledger.entries = false := by
  have hnarrow : start (.ofUrl "") narrow.pool.config ⟨0⟩ = narrow := rfl
  have hfinal := run_tears_down_for_good (.ofUrl "") narrow.pool.config ⟨0⟩ rechecking
    .forceCloseAll
  have hopen := run_tears_down_for_good (.ofUrl "") narrow.pool.config ⟨0⟩
    (rechecking ++ .forceCloseAll :: replacing) (.proceed 0)
  rw [hnarrow] at hfinal hopen
  have htorn : (narrow.run rechecking).tearsDown .forceCloseAll = true := by decide
  have hopened : 0 < (narrow.run rechecking).ledger.openings.length := by decide
  have hgone := hfinal.1 htorn replacing 0 hopened
  dsimp only at hgone hopen ⊢
  refine ⟨by decide, hgone, ⟨3, ⟨2, 1⟩, ⟨16⟩, ⟨21⟩, ⟨21⟩, "nullnull", false⟩, by decide, rfl, ?_⟩
  exact hopen.2 _ (by decide)

end Scene
end SqlMapper
