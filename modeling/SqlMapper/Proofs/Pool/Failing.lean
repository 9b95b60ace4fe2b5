import SqlMapper.Connection.Memory
import SqlMapper.Connection.Recorder
import SqlMapper.Proofs.Pool.Attempt

/-!
An acquisition that fails costs the pool nothing but the connections that it found bad: no place
stays taken, and whatever is missing was tried, is of no use to anybody, and was closed.
-/

namespace SqlMapper

namespace Attempt

open Ledger

variable {ω : Type} {p : Pool} {l : Ledger ω} {ts : List Trial}

theorem take_succ_of_drop {α : Type} {l rest : List α} {k : Nat} {a : α}
    (h : l.drop k = a :: rest) : l.take (k + 1) = l.take k ++ [a] := by
  rw [List.take_add_one, ← List.head?_drop, h]
  rfl

/-- Whatever was taken out of the pool was tried: the idle ones as they were, the others under a new
wrapper. -/
theorem exists_trial_of_taken (h : InOrder p l ts) :
    (∀ slot ∈ p.idle.take (Origin.idle.count ts), ∃ t ∈ ts, t.slot = slot) ∧
      ∀ slot ∈ p.active.take (Origin.reclaimed.count ts),
        ∃ t ∈ ts, t.slot.physical = slot.physical := by
  -- On the trials; the latest one took out at most one connection, the next of its kind.
  induction ts with
  | nil => exact ⟨nofun, nofun⟩
  | cons t ts ih =>
    obtain ⟨hnext, hearlier⟩ := h
    obtain ⟨hidles, hactives⟩ := ih hearlier
    have hidles' : ∀ slot ∈ p.idle.take (Origin.idle.count ts), ∃ t' ∈ t :: ts, t'.slot = slot :=
      fun slot hslot => (hidles slot hslot).imp fun t' => And.imp_left (List.mem_cons_of_mem t)
    have hactives' : ∀ slot ∈ p.active.take (Origin.reclaimed.count ts),
        ∃ t' ∈ t :: ts, t'.slot.physical = slot.physical :=
      fun slot hslot => (hactives slot hslot).imp fun t' => And.imp_left (List.mem_cons_of_mem t)
    rw [Origin.count_cons, Origin.count_cons]
    cases hnext with
    | @idle first rest time verdict hidle =>
      refine ⟨fun slot hslot => ?_, by simpa using hactives'⟩
      rw [if_pos rfl, take_succ_of_drop hidle] at hslot
      rcases List.mem_append.mp hslot with hslot | hslot
      · exact hidles' slot hslot
      · exact ⟨_, List.mem_cons_self, (List.mem_singleton.mp hslot).symm⟩
    | opened hidle hroom hnew => exact ⟨by simpa using hidles', by simpa using hactives'⟩
    | @reclaimed slot' oldest rest time verdict hidle hroom hactive hoverdue hphysical =>
      refine ⟨by simpa using hidles', fun slot hslot => ?_⟩
      rw [if_pos rfl, take_succ_of_drop hactive] at hslot
      rcases List.mem_append.mp hslot with hslot | hslot
      · exact hactives' slot hslot
      · refine ⟨_, List.mem_cons_self, ?_⟩
        rw [List.mem_singleton.mp hslot]
        exact hphysical

variable [Server ω] [Clock ω]

/-- A failed acquisition costs no capacity. Nobody else acts on the pool, but the acquisition may be
interrupted at any time; however it comes to fail, nothing is added to the pool, no place stays
reserved and no request is counted. What is left is what was there, in its order, without some of
the first idle connections and some of those in use the longest; and each of these was tried and
found bad, its wrapper is no longer live, and close was called on it. -/
theorem run_fails_costs_nothing (username password : Option String) (p : Pool) (l : Ledger ω)
    (turns : List Turn) (e : Error)
    (hfails : ((begin username password p l).run turns).acquisition.result? = some (.error e)) :
    let s := (begin username password p l).run turns
    s.pool.pending = p.pending ∧ s.pool.tallies.requests = p.tallies.requests ∧
      ∃ idles actives es, s.pool.idle = p.idle.drop idles ∧
        s.pool.active = p.active.drop actives ∧ s.ledger.entries = es ++ l.entries ∧
        ∀ slot ∈ p.idle.take idles ++ p.active.take actives,
          (∃ t ∈ s.trials, t.slot.physical = slot.physical ∧ t.verdict = some false) ∧
          s.pool.isLive slot.wrapper = false ∧ isClosed slot.physical.connection es = true := by
  intro s
  have hfailed : Failed p l s e :=
    ((course_begin username password p l).run turns).failed_of_result hfails
  have hleft := hfailed.left
  obtain ⟨es, hentries, hclosed⟩ := hleft.entries
  obtain ⟨hidles, hactives⟩ := exists_trial_of_taken hleft.inOrder
  refine ⟨hleft.pending, hleft.requests, _, _, es, hleft.idle, hleft.active, hentries, ?_⟩
  intro slot hslot
  obtain ⟨t, ht, hphysical⟩ : ∃ t ∈ s.trials, t.slot.physical = slot.physical := by
    rcases List.mem_append.mp hslot with hslot | hslot
    · exact (hidles slot hslot).imp fun t => And.imp_right (congrArg Slot.physical)
    · exact hactives slot hslot
  refine ⟨⟨t, ht, hphysical, hfailed.failed t ht⟩, ?_, hphysical ▸ hclosed t ht⟩
  refine Bool.eq_false_iff.mpr fun hlive => ?_
  obtain ⟨-, hslots, hheld⟩ := (hleft.live slot.wrapper hlive).resolve_left nofun
  rcases List.mem_append.mp hslot with hslot | hslot
  · obtain ⟨t', ht', rfl⟩ := hidles slot hslot
    exact hslots t' ht' rfl
  · exact hheld slot hslot rfl

def lost (n : Nat) : Slot := ⟨n, ⟨n, n⟩, ⟨0⟩, ⟨0⟩, ⟨0⟩, ""⟩

def stranded : Pool :=
  { Pool.start (.ofUrl "")
      { PoolConfig.standard with maxActive := 2, maxCheckoutTime := .zero } with
    idle := [lost 1]
    active := [lost 2, lost 3]
    wrappers := 3
    physicals := 3
    live := [3, 2, 1] }

def gone : Ledger (Recorder MemoryServer) :=
  .start (.start { MemoryServer.start false with refusesConnections := true })

/-- The idle connection and one that is taken from its holder are tried, and then there is room for
a new one, which is refused. -/
theorem fails_costs_nothing_refused :
    let s := (begin none none stranded gone).run (List.replicate 13 .goesOn)
    s.acquisition.result? = some (.error (.connection "cannot connect to ")) ∧
      s.pool.idle = [] ∧ s.pool.active = [lost 3] ∧ s.trials.length = 2 ∧
      s.pool.pending = 0 ∧ s.pool.tallies.requests = 0 ∧
      ∃ idles actives es, s.pool.idle = stranded.idle.drop idles ∧
        s.pool.active = stranded.active.drop actives ∧ s.ledger.entries = es ++ gone.entries ∧
        ∀ slot ∈ stranded.idle.take idles ++ stranded.active.take actives,
          (∃ t ∈ s.trials, t.slot.physical = slot.physical ∧ t.verdict = some false) ∧
          s.pool.isLive slot.wrapper = false ∧ isClosed slot.physical.connection es = true := by
  have hfails : ((begin none none stranded gone).run (List.replicate 13
      .goesOn)).acquisition.result? = some (.error (.connection "cannot connect to ")) := by
    decide
  exact ⟨hfails, by decide, by decide, by decide,
    run_fails_costs_nothing none none stranded gone (List.replicate 13 .goesOn) _ hfails⟩

end Attempt
end SqlMapper
