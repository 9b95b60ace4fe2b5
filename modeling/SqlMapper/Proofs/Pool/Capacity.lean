import Mathlib.Data.Multiset.Count
import SqlMapper.Proofs.Pool.Steps

/-!
A pool keeps its limits. What carries the bound is that a candidate takes the room that it needs
from the moment at which it is chosen, until everything is torn down.
-/

namespace SqlMapper

namespace Inventory

/-- How many of the candidates were chosen since everything was torn down for the last time. -/
def fresh (v : Inventory) : Nat := v.candidates.countP (·.generation = v.generation)

structure Fits (v : Inventory) : Prop where
  pending : v.pending = v.candidates.card
  room : v.active.length + v.idle.length + v.fresh ≤ v.maxActive
  idle : v.idle.length ≤ v.maxIdle
  past : ∀ c ∈ v.candidates, c.generation ≤ v.generation

variable {v v' : Inventory}

theorem Fits.restage (h : v.Fits) {slot : Slot} {generation : Nat} {stage : Stage}
    {rest : Multiset Candidate} (hcandidates : v.candidates = ⟨slot, generation, stage⟩ ::ₘ rest)
    (stage' : Stage) (es : List Ledger.Entry) :
    Fits { v with
      candidates := ⟨slot, generation, stage'⟩ ::ₘ rest
      entries := es } := by
  obtain ⟨hpending, hroom, hidle, hpast⟩ := h
  rw [fresh, hcandidates, Multiset.countP_cons] at hroom
  rw [hcandidates] at hpending hpast
  refine ⟨?_, ?_, hidle, ?_⟩
  · rw [hpending, Multiset.card_cons, Multiset.card_cons]
  · rw [fresh, Multiset.countP_cons]
    exact hroom
  · intro c hc
    rcases Multiset.mem_cons.mp hc with rfl | hc
    · exact hpast ⟨slot, generation, stage⟩ (Multiset.mem_cons_self _ _)
    · exact hpast c (Multiset.mem_cons_of_mem hc)

/-- A slot that becomes a candidate takes the room of another slot, or room that was left. -/
theorem Fits.choose (h : v.Fits) (slot : Slot) (left : List Slot.Test) {v' : Inventory}
    (hpending : v'.pending = v.pending + 1)
    (hcandidates : v'.candidates = ⟨slot, v.generation, .testing left⟩ ::ₘ v.candidates)
    (hgeneration : v'.generation = v.generation)
    (hroom : v'.active.length + v'.idle.length + v.fresh < v'.maxActive)
    (hidle : v'.idle.length ≤ v'.maxIdle) : v'.Fits where
  pending := by rw [hpending, hcandidates, h.pending, Multiset.card_cons]
  room := by
    rw [fresh, hcandidates, hgeneration, Multiset.countP_cons, if_pos rfl]
    have := hroom
    rw [fresh] at this
    omega
  idle := hidle
  past := by
    rw [hcandidates, hgeneration]
    intro c hc
    rcases Multiset.mem_cons.mp hc with rfl | hc
    · exact le_refl _
    · exact h.past c hc

/-- A candidate that leaves gives back the room that it took. -/
theorem Fits.leave (h : v.Fits) {slot : Slot} {generation : Nat} {stage : Stage}
    {rest : Multiset Candidate} (hcandidates : v.candidates = ⟨slot, generation, stage⟩ ::ₘ rest) :
    v.pending - 1 = rest.card ∧
      v.active.length + v.idle.length + rest.countP (·.generation = v.generation) +
        (if generation = v.generation then 1 else 0) ≤ v.maxActive ∧
      ∀ c ∈ rest, c.generation ≤ v.generation := by
  have hpending := h.pending
  have hroom := h.room
  rw [hcandidates, Multiset.card_cons] at hpending
  rw [fresh, hcandidates, Multiset.countP_cons] at hroom
  refine ⟨?_, ?_, ?_⟩
  · rw [hpending, Nat.add_sub_cancel]
  · rw [Nat.add_assoc]
    exact hroom
  · intro c hc
    exact h.past c (hcandidates ▸ Multiset.mem_cons_of_mem hc)

/-- No transfer takes the pool over its limits. -/
theorem Fits.transfer (h : v.Fits) (ht : v.Transfer v') : v'.Fits := by
  have hroom := h.room
  have hidle := h.idle
  cases ht with
  | same => exact h
  | pick hslot =>
    rw [hslot, List.length_cons] at hroom hidle
    refine h.choose _ _ rfl rfl rfl ?_ ?_
    · dsimp only
      omega
    · dsimp only
      omega
  | fail habout hclosed => exact ⟨h.pending, h.room, h.idle, h.past⟩
  | connect hnone hfree hsound hwrapper hphysical =>
    -- Nothing is idle, and the room was counted with all candidates.
    have hfresh : v.fresh ≤ v.pending := h.pending ▸ Multiset.countP_le_card _ _
    refine h.choose _ _ rfl rfl rfl ?_ hidle
    dsimp only
    rw [hnone, List.length_nil]
    omega
  | reclaim hnone hslot hwrapper hphysical =>
    -- The candidate takes the room of the slot that it was.
    rw [hslot, List.length_cons] at hroom
    refine h.choose _ _ rfl rfl rfl ?_ hidle
    dsimp only
    omega
  | pass hcandidates hpassed hfree => exact h.restage hcandidates _ _
  | failTest hcandidates habout => exact h.restage hcandidates _ _
  | finish hcandidates => exact h.restage hcandidates _ _
  | handOut hcandidates hwrapper hphysical =>
    -- Its generation is that of the pool, so its room was counted with that of the candidates.
    obtain ⟨hpending, hroom, hpast⟩ := h.leave hcandidates
    rw [if_pos rfl] at hroom
    refine ⟨hpending, ?_, hidle, hpast⟩
    rw [fresh, List.length_append, List.length_singleton]
    dsimp only
    omega
  | reject hcandidates =>
    obtain ⟨hpending, hroom, hpast⟩ := h.leave hcandidates
    exact ⟨hpending, le_trans (Nat.le_add_right _ _) hroom, hidle, hpast⟩
  | close hcondemned habout hclosed => exact ⟨h.pending, h.room, h.idle, h.past⟩
  | keep hactive hfree hsound hwrapper hphysical hdone =>
    -- One slot less is in use, one more is idle, and that there was room for it was tested.
    rw [hactive, List.length_append, List.length_cons] at hroom
    refine ⟨h.pending, ?_, ?_, h.past⟩
    · rw [List.length_append, List.length_append, List.length_singleton, fresh]
      rw [fresh] at hroom
      dsimp only
      omega
    · rw [List.length_append, List.length_singleton]
      exact hfree
  | discard hactive habout hclosed =>
    rw [hactive, List.length_append, List.length_cons] at hroom
    refine ⟨h.pending, ?_, h.idle, h.past⟩
    rw [List.length_append, fresh]
    rw [fresh] at hroom
    dsimp only
    omega
  | tearDown maxActive maxIdle =>
    -- Every candidate was chosen before.
    have hold : v.candidates.countP (·.generation = v.generation + 1) = 0 := by
      rw [Multiset.countP_eq_zero]
      intro c hc
      exact Nat.ne_of_lt (Nat.lt_succ_of_le (h.past c hc))
    refine ⟨h.pending, ?_, Nat.zero_le _, ?_⟩
    · rw [fresh, hold]
      exact Nat.zero_le _
    · intro c hc
      exact Nat.le_succ_of_le (h.past c hc)
  | ask hhandle hlive hcall => exact ⟨h.pending, h.room, h.idle, h.past⟩
  | answer hcalls => exact ⟨h.pending, h.room, h.idle, h.past⟩

end Inventory

namespace Scene

variable {ω : Type}

def freshCandidates (s : Scene ω) : List Candidate :=
  s.candidates.filter (·.generation == s.pool.generation)

theorem fits_start (settings : ConnectionSettings) (config : PoolConfig) (server : ω) :
    (start settings config server).inventory.Fits where
  pending := rfl
  room := Nat.zero_le _
  idle := Nat.zero_le _
  past := by
    intro c hc
    exact absurd hc (Multiset.notMem_zero c)

variable [Server ω] [Clock ω]

/-- Whatever happens, in whatever order, a pool keeps the limits that it has at the moment: for the
connections in use, for the idle ones, and for both together with the candidates that may still be
handed out. -/
theorem run_keeps_limits (settings : ConnectionSettings) (config : PoolConfig) (server : ω)
    (events : List (Event ω)) :
    let s := (start settings config server).run events
    s.pool.active.length ≤ s.pool.config.maxActive.toNat ∧
      s.pool.idle.length ≤ s.pool.config.maxIdle.toNat ∧
      s.pool.active.length + s.pool.idle.length + s.freshCandidates.length ≤
        s.pool.config.maxActive.toNat := by
  intro s
  have h : s.inventory.Fits :=
    run_induction settings config server (fits_start settings config server)
      (fun _ _ => Inventory.Fits.transfer) events
  have hfresh : s.inventory.fresh = s.freshCandidates.length := by
    rw [freshCandidates, ← List.countP_eq_length_filter]
    rfl
  have hroom : s.pool.active.length + s.pool.idle.length + s.inventory.fresh ≤
      s.pool.config.maxActive.toNat := h.room
  refine ⟨?_, h.idle, hfresh ▸ hroom⟩
  omega

end Scene
end SqlMapper
