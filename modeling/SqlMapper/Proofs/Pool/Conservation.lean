import SqlMapper.Proofs.Pool.Fairness

/-!
No physical connection is lost. Every one that was ever opened is in a place where somebody will
find it, or was closed.
-/

namespace SqlMapper

open Ledger

namespace Inventory

def IsComplete (v : Inventory) : Prop :=
  ∀ n < v.openings.length, n ∈ v.places ∨ isClosed n v.entries = true

variable {v v' : Inventory}

theorem Transfer.isClosed (h : v.Transfer v') {n : Nat} (hn : Ledger.isClosed n v.entries = true) :
    Ledger.isClosed n v'.entries = true := by
  rcases h.writes with ⟨m, es, hentries, -⟩ | ⟨c, -, reply, hentries⟩
  · rw [hentries, isClosed_append, hn, Bool.or_true]
  · rw [hentries, Ledger.isClosed, List.any_cons, ← Ledger.isClosed, hn, Bool.or_true]

/-- No transfer loses a connection that was opened. -/
theorem IsComplete.transfer (h : v.IsComplete) (ht : v.Transfer v') : v'.IsComplete := by
  intro n hlt
  cases ht.retitling with
  | opened htitles hplaces hlive hwrappers hphysicals hopenings =>
    rw [hplaces, Multiset.mem_cons]
    rcases Nat.lt_succ_iff_lt_or_eq.mp (hopenings ▸ hlt) with hold | rfl
    · rcases h n hold with hplace | hclosed
      · exact .inl (.inr hplace)
      · exact .inr (ht.isClosed hclosed)
    · exact .inl (.inl rfl)
  | renewed hbefore htitles hplaces hlive hwrappers hphysicals hopenings =>
    rw [hplaces]
    rcases h n (hopenings ▸ hlt) with hplace | hclosed
    · exact .inl hplace
    · exact .inr (ht.isClosed hclosed)
  | removed gone htitles hplaces hlive hwrappers hphysicals hopenings hnew =>
    -- A connection that was opened just now and has no place was closed at once.
    by_cases hold : n < v.openings.length
    · rcases h n hold with hplace | hclosed
      · rcases hplaces with hsame | ⟨m, hless, hclosed⟩
        · exact .inl (hsame ▸ hplace)
        · rcases Multiset.mem_cons.mp (hless ▸ hplace) with rfl | hplace
          · exact .inr hclosed
          · exact .inl hplace
      · exact .inr (ht.isClosed hclosed)
    · exact .inr (hnew n hlt (Nat.not_lt.mp hold))

end Inventory

namespace Scene

variable {ω : Type} [Server ω] [Clock ω]

theorem complete_run (settings : ConnectionSettings) (config : PoolConfig) (server : ω)
    (events : List (Event ω)) :
    ((start settings config server).run events).inventory.IsComplete :=
  run_induction settings config server (fun _ hn => absurd hn (Nat.not_lt_zero _))
    (fun _ _ => Inventory.IsComplete.transfer) events

omit [Server ω] [Clock ω] in
/-- Once nobody has anything left to do, the places are those that are idle or in use. -/
theorem places_of_isAtRest {s : Scene ω} (h : s.isAtRest = true) :
    s.inventory.places = ↑((s.pool.active ++ s.pool.idle).map (·.physical.connection)) := by
  obtain ⟨hacquisitions, hchores⟩ := (Bool.and_eq_true _ _).mp h
  have hcandidates : s.candidates = [] := by
    rw [candidates, List.isEmpty_iff.mp hacquisitions]
    rfl
  have hcondemned : s.condemned = [] := by
    have hnothing : s.chores.flatten = [] := by
      rw [List.flatten_eq_nil_iff]
      intro chores hmem
      exact List.isEmpty_iff.mp (List.all_eq_true.mp hchores chores hmem)
    rw [condemned, List.isEmpty_iff.mp hacquisitions, hnothing]
    rfl
  rw [Inventory.places, titles_inventory, slots, hcandidates]
  change _ + (↑s.condemned : Multiset Slot).map _ = _
  rw [hcondemned, Multiset.coe_nil, Multiset.map_zero, add_zero, Multiset.map_coe, List.map_map,
    List.map_nil, List.append_nil]
  rfl

/-- No connection leaks and none is lost. Whenever no acquisition is going on and nothing is left to
do, every connection that was ever opened is either in exactly one slot, idle or in use, or close
was called on it, whatever failed on the way; and none that was closed is in a slot. -/
theorem run_conserves_connections (settings : ConnectionSettings) (config : PoolConfig) (server : ω)
    (events : List (Event ω)) (n : Nat) :
    let s := (start settings config server).run events
    s.isAtRest = true → n < s.ledger.openings.length →
      (s.pool.active ++ s.pool.idle).countP (·.physical.connection == n) =
        if isClosed n s.ledger.entries then 0 else 1 := by
  intro s hrest hn
  have horderly : s.inventory.Orderly := orderly_run settings config server events
  have hplaces := places_of_isAtRest hrest
  have hnodup : ((s.pool.active ++ s.pool.idle).map (·.physical.connection)).Nodup := by
    have := horderly.separate.places
    rwa [hplaces] at this
  have hcount : (s.pool.active ++ s.pool.idle).countP (·.physical.connection == n) =
      ((s.pool.active ++ s.pool.idle).map (·.physical.connection)).count n := by
    rw [List.count, List.countP_map]
    rfl
  rw [hcount]
  by_cases hmem : n ∈ (s.pool.active ++ s.pool.idle).map (·.physical.connection)
  · -- What is idle or in use is fit, and what is fit was not closed.
    have hfit : s.inventory.IsFit n := by
      obtain ⟨slot, hslot, rfl⟩ := List.mem_map.mp hmem
      rcases List.mem_append.mp hslot with hslot | hslot
      · exact .inl ⟨slot, hslot, rfl⟩
      · exact .inr (.inl ⟨slot, hslot, rfl⟩)
    have hopen : isClosed n s.ledger.entries = false := horderly.fair.isClosed_eq_false hfit
    rw [hopen, List.count_eq_one_of_mem hnodup hmem]
    rfl
  -- What is nowhere was closed, as nobody is left who could still close it.
  · have hclosed : isClosed n s.ledger.entries = true := by
      rcases complete_run settings config server events n hn with hplace | hclosed
      · rw [hplaces] at hplace
        exact absurd hplace hmem
      · exact hclosed
    rw [hclosed, List.count_eq_zero_of_not_mem hmem]
    rfl

def returning : List (Event Willing) := acquiring ++ [.giveBack 0]

/-- The connection that came back is in one slot. -/
theorem conserves_returned :
    (narrow.run returning).isAtRest = true ∧ 0 < (narrow.run returning).ledger.openings.length ∧
      ((narrow.run returning).pool.active ++ (narrow.run returning).pool.idle).countP
          (·.physical.connection == 0) =
        if isClosed 0 (narrow.run returning).ledger.entries then 0 else 1 := by
  have hrest : (narrow.run returning).isAtRest = true := by decide
  have hopened : 0 < (narrow.run returning).ledger.openings.length := by decide
  have hcount := run_conserves_connections _ _ _ returning 0 hrest hopened
  exact ⟨hrest, hopened, hcount⟩

end Scene
end SqlMapper
