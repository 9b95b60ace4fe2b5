import SqlMapper.Proofs.Pool.Scene

/-!
What is done at one go is one of the orders in which its sections can come, in a scene in which
nobody else does anything. So whatever holds after every run of a scene holds for it.
-/

namespace SqlMapper

namespace Scene

variable {ω : Type}

def finish (r : Except Error Handle) (p : Pool) (l : Ledger ω) (s : Scene ω) : Scene ω :=
  { s with
    pool := p
    ledger := l
    acquisitions := []
    handles := s.handles ++ r.toOption.toList }

theorem put_alone (s : Scene ω) {a a' : Acquisition} {r : Except Error Handle}
    (halone : s.acquisitions = [a]) (hresult : a'.result? = some r) :
    s.put 0 a' = s.finish r s.pool s.ledger := by
  unfold put
  rw [hresult, halone]
  cases r with
  | ok h => rfl
  | error e =>
    have hnone : s.handles = s.handles ++ (Except.error e : Except Error Handle).toOption.toList :=
      (List.append_nil _).symm
    rw [finish, ← hnone]
    rfl

theorem not_isBusy_of_alone {s : Scene ω} (hcalls : s.calls = []) (connection? : Option Nat) :
    connection?.any s.isBusy = false := by
  cases connection? with
  | none => rfl
  | some n => rw [Option.any_some, isBusy, hcalls, List.any_nil]

variable [Server ω]

/-- Closing everything at one go is a run of a scene in which nobody else does anything. -/
theorem run_goOn_alone [Clock ω] (chores : List Chore) (s : Scene ω) (hcalls : s.calls = [])
    (hchores : s.chores = [chores]) :
    s.run (List.replicate chores.length (.goOn 0)) =
      { s with
        pool := (s.pool.doAll chores s.ledger).1
        ledger := (s.pool.doAll chores s.ledger).2
        chores := [[]] } := by
  -- On the chores; each of them is one step of the scene.
  induction chores generalizing s with
  | nil =>
    rw [List.length_nil, List.replicate_zero, run, List.foldl_nil, Pool.doAll, List.foldl_nil,
      ← hchores]
  | cons chore chores ih =>
    rw [List.length_cons, List.replicate_succ, run, List.foldl_cons]
    have hstep : s.step (.goOn 0) =
        { s with
          pool := (s.pool.doChore chore s.ledger).1
          ledger := (s.pool.doChore chore s.ledger).2
          chores := [chores] } := by
      dsimp only [step, goOn]
      rw [hchores]
      dsimp only [List.getElem?_cons_zero]
      rw [not_isBusy_of_alone hcalls, if_neg (by simp)]
      rfl
    rw [hstep]
    exact ih _ hcalls rfl

/-- Everything is taken out of a pool and closed at one go. -/
theorem run_tearDown_alone [Clock ω] (s : Scene ω) (p : Pool) (hcalls : s.calls = [])
    (hchores : s.chores = []) :
    (s.tearDown p).run (List.replicate p.tearDown.1.length (.goOn 0)) =
      { s with
        pool := (p.forceCloseAll s.ledger).1
        ledger := (p.forceCloseAll s.ledger).2
        chores := [[]] } := by
  have hone : (s.tearDown p).chores = [p.tearDown.1] := by
    rw [tearDown]
    dsimp only
    rw [hchores, List.nil_append]
  exact run_goOn_alone p.tearDown.1 (s.tearDown p) hcalls hone

variable [Clock ω]

/-- An acquisition that is run to its end is a run of a scene in which nobody else does anything. -/
theorem run_proceed_alone {r : Except Error Handle} {p : Pool} {l : Ledger ω} (sections : Nat)
    (a : Acquisition) (s : Scene ω) (halone : s.acquisitions = [a]) (hcalls : s.calls = [])
    (hover : a.result? = none)
    (hrun : a.run undisturbed sections s.pool s.ledger = some (r, p, l)) :
    ∃ n, s.run (List.replicate n (.proceed 0)) = s.finish r p l := by
  -- On the sections; each of them is one step of the scene.
  induction sections generalizing a s with
  | zero => exact absurd hrun (by simp [Acquisition.run])
  | succ sections ih =>
    rw [Acquisition.run, hover] at hrun
    dsimp only at hrun
    cases hsleep : a.sleep? s.pool s.ledger with
    | none =>
      rw [hsleep] at hrun
      exact absurd hrun (by simp)
    | some l₀ =>
      rw [hsleep] at hrun
      dsimp only at hrun
      rcases hsection : a.step undisturbed s.pool l₀ with ⟨a', p', l'⟩
      rw [hsection] at hrun
      dsimp only at hrun
      have hstep : s.step (.proceed 0) = { s with pool := p', ledger := l' }.put 0 a' := by
        dsimp only [step, proceed]
        rw [halone]
        dsimp only [List.getElem?_cons_zero]
        rw [not_isBusy_of_alone hcalls, hover, if_neg (by simp), hsleep]
        dsimp only
        rw [hsection]
      cases hresult : a'.result? with
      | some r' =>
        -- The acquisition is over, which another section would only find out.
        refine ⟨1, ?_⟩
        cases sections with
        | zero => exact absurd hrun (by simp [Acquisition.run])
        | succ sections =>
          rw [Acquisition.run, hresult] at hrun
          obtain ⟨rfl, rfl, rfl⟩ : r' = r ∧ p' = p ∧ l' = l := by simpa using hrun
          rw [List.replicate_one, run, List.foldl_cons, List.foldl_nil, hstep]
          exact put_alone { s with pool := p', ledger := l' } halone hresult
      | none =>
        have hput : { s with pool := p', ledger := l' }.put 0 a' =
            { s with pool := p', ledger := l', acquisitions := [a'] } := by
          rw [put, hresult, halone]
          rfl
        obtain ⟨n, hn⟩ := ih a' { s with pool := p', ledger := l', acquisitions := [a'] } rfl
          hcalls hresult hrun
        refine ⟨n + 1, ?_⟩
        rw [List.replicate_succ, run, List.foldl_cons, hstep, hput]
        exact hn

/-- An acquisition that nobody disturbs, from its beginning to its end. -/
theorem run_acquire_alone {r : Except Error Handle} {p : Pool} {l : Ledger ω}
    (username password : Option String) (s : Scene ω) (halone : s.acquisitions = [])
    (hcalls : s.calls = []) (hthere : s.pool.dropped = false)
    (hacquire : s.pool.acquire undisturbed username password s.ledger = some (r, p, l)) :
    ∃ n, s.run (.acquire username password :: List.replicate n (.proceed 0)) = s.finish r p l := by
  rcases hread : Clock.read s.ledger with ⟨now, l₀⟩
  rw [Pool.acquire, hread] at hacquire
  let a := Acquisition.start username password now
  let s₀ : Scene ω := { s with ledger := l₀, acquisitions := [a] }
  have hbegin : s.step (.acquire username password) = s₀ := by
    dsimp only [step]
    rw [hthere, if_neg (by simp), hread, halone]
    rfl
  obtain ⟨n, hn⟩ := s₀.run_proceed_alone Acquisition.sectionBound a rfl hcalls rfl hacquire
  refine ⟨n, ?_⟩
  rw [run, List.foldl_cons, hbegin]
  exact hn

omit [Clock ω] in
/-- A call that is begun and answered at once does at the server what it does by itself. -/
theorem answer_ask_alone {s : Scene ω} {j : Nat} {h : Handle} {call : Call}
    (hget : s.handles[j]? = some h) (hcalls : s.calls = []) (hcall : call ≠ .close)
    (hvalid : h.isValid s.pool = true) :
    ((s.ask j call).answer 0).ledger.server =
      ((h.perform s.pool call).run s.ledger).2.server := by
  have hbusy : s.isBusy h.physical.connection = false := by
    rw [isBusy, hcalls, List.any_nil]
  have hask : s.ask j call = { s with calls := [⟨h.wrapper, h.physical.connection, call⟩] } := by
    rw [ask, hget]
    dsimp only
    rw [if_neg (by simp [hcall, hbusy]), if_pos hvalid, hcalls, List.nil_append]
  rw [hask, Handle.perform, if_pos hvalid]
  rfl

end Scene
end SqlMapper
