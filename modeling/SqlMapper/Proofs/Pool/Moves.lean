import SqlMapper.Proofs.Pool.Sections
import SqlMapper.Proofs.Pool.Teardown

/-!
Everything that can happen to a scene in one step, together with the event that it comes of. What
every move preserves holds after every run.
-/

namespace SqlMapper

open Connection Ledger

variable {ω : Type} [Server ω] [Clock ω]

namespace Scene

inductive Moves (s : Scene ω) : Event ω → Scene ω → Prop where
  | begins {username password : Option String} (hthere : s.pool.dropped = false) :
    Moves s (.acquire username password) { s with
      ledger := (Clock.read s.ledger).2
      acquisitions := s.acquisitions ++ [.start username password (Clock.read s.ledger).1] }
  | stays {i : Nat} (hwaits : ∀ a, s.acquisitions[i]? = some a →
      a.result?.isSome = true ∨ a.connection?.isSome = true ∨ a.isAsleep s.pool = true) :
    Moves s (.proceed i) s
  | proceeds {i : Nat} {a a' : Acquisition} {p' : Pool} {l l' : Ledger ω}
      (hget : s.acquisitions[i]? = some a) (hover : a.result? = none)
      (hsleep : a.sleep? s.pool s.ledger = some l)
      (hstep : a.step undisturbed s.pool l = (a', p', l'))
      (hsection : a.Section (Clock.read l).1 s.pool (Clock.read l).2 a' p' l') :
    Moves s (.proceed i) ({ s with pool := p', ledger := l' }.put i a')
  | asks {j : Nat} {call : Call} (c : Ongoing) :
    Moves s (.ask j call) { s with calls := s.calls ++ [c] }
  | answers {k : Nat} {c : Ongoing} (hget : s.calls[k]? = some c) :
    Moves s (.answer k) { s with
      calls := s.calls.eraseIdx k
      ledger := (s.ledger.callFor (some c.wrapper) c.connection c.call).2 }
  | returns {j : Nat} {h : Handle} {p' : Pool} {l' : Ledger ω} (hget : s.handles[j]? = some h)
      (hfree : s.calls.any (·.wrapper == h.wrapper) = false) (hfirst : h.returned = false)
      (hthere : s.pool.dropped = false)
      (hgiveBack : s.pool.giveBack (Clock.read s.ledger).1 h.wrapper (Clock.read s.ledger).2 =
        (p', l'))
      (hreturn : s.pool.Return (Clock.read s.ledger).1 h.wrapper (Clock.read s.ledger).2 p' l') :
    Moves s (.giveBack j) { s with
      pool := p'
      ledger := l'
      handles := s.handles.set j { h with returned := true } }
  | outlives {j : Nat} {h : Handle} (hget : s.handles[j]? = some h)
      (hgone : s.pool.dropped = true) :
    Moves s (.giveBack j) { s with
      ledger := (Clock.read s.ledger).2
      handles := s.handles.set j { h with returned := true } }
  | returnsAgain {j : Nat} {h : Handle} (hget : s.handles[j]? = some h)
      (hreturned : h.returned = true) :
    Moves s (.giveBack j) { s with ledger := (Clock.read s.ledger).2 }
  | keepsHandle {j : Nat} (hbusy : ∀ h, s.handles[j]? = some h →
      s.calls.any (·.wrapper == h.wrapper) = true) :
    Moves s (.giveBack j) s
  | closesAll {e : Event ω} (dropped : Bool) (htears : s.tearsDown e = true)
      (hconfig : ∀ config settings, e ≠ .reconfigure config settings) :
    Moves s e (s.tearDown { s.pool with dropped := dropped })
  | reconfigures {config : PoolConfig} {settings : ConnectionSettings}
      (htears : s.tearsDown (.reconfigure config settings) = true) :
    Moves s (.reconfigure config settings)
      (s.tearDown { s.pool with config := config, settings := settings, tallies := .zero })
  | interrupts :
    Moves s .interrupt { s with
      pool := s.pool.nextEpoch
      chores := s.chores ++ [[.wakeAll]] }
  | wakesAll {k : Nat} {rest : List Chore} (hget : s.chores[k]? = some (.wakeAll :: rest)) :
    Moves s (.goOn k) { s with
      pool := s.pool.notifyAll
      chores := s.chores.set k rest }
  | closes {k : Nat} {slot : Slot} {rest : List Chore}
      (hget : s.chores[k]? = some (.close slot :: rest)) :
    Moves s (.goOn k) { s with
      ledger := (closeQuietly slot.physical.connection s.ledger).2
      chores := s.chores.set k rest }
  | disturbs (change : ω → ω) :
    Moves s (.disturb change)
      { s with ledger := { s.ledger with server := change s.ledger.server } }
  | nothing {e : Event ω} (hproceed : ∀ i, e ≠ .proceed i) (hgiveBack : ∀ j, e ≠ .giveBack j)
      (htears : s.tearsDown e = false) :
    Moves s e s

variable (s : Scene ω)

theorem moves_proceed (i : Nat) : s.Moves (.proceed i) (s.proceed i) := by
  unfold proceed
  cases hget : s.acquisitions[i]? with
  | none => exact .stays fun a ha => absurd (hget.symm.trans ha) (by simp)
  | some a =>
    have hself {Q : Prop} (hQ : Q) (h : Q → a.result?.isSome = true ∨ a.connection?.isSome = true ∨
        a.isAsleep s.pool = true) : s.Moves (.proceed i) s := by
      refine .stays fun b hb => ?_
      obtain rfl : a = b := Option.some.inj (hget.symm.trans hb)
      exact h hQ
    dsimp only
    split
    · rename_i hready
      refine hself hready fun h => ?_
      rcases Bool.or_eq_true_iff.mp h with hover | hbusy
      · exact .inl hover
      · exact .inr (.inl ((Option.any_eq_true_iff_get _ _).mp hbusy).1)
    rename_i hready
    have hover : a.result? = none := by
      cases hresult : a.result? with
      | none => rfl
      | some r => simp [hresult] at hready
    cases hsleep : a.sleep? s.pool s.ledger with
    | none =>
      refine hself hsleep fun h => .inr (.inr ?_)
      unfold Acquisition.sleep? at h
      split at h
      · assumption
      · exact absurd h (by simp)
    | some l =>
      exact .proceeds hget hover hsleep rfl (a.section_step s.pool l hover)

theorem moves_giveBack (j : Nat) : s.Moves (.giveBack j) (s.giveBack j) := by
  unfold giveBack
  cases hget : s.handles[j]? with
  | none => exact .keepsHandle fun h hh => absurd (hget.symm.trans hh) (by simp)
  | some h =>
    dsimp only
    split
    · rename_i hbusy
      refine .keepsHandle fun g hg => ?_
      obtain rfl : h = g := Option.some.inj (hget.symm.trans hg)
      exact hbusy
    rename_i hfree
    unfold Handle.release Handle.close
    dsimp only
    split
    · rename_i hreturned
      have hset : s.handles.set j h = s.handles := by
        obtain ⟨hj, rfl⟩ := List.getElem?_eq_some_iff.mp hget
        exact List.set_getElem_self hj
      rw [hset]
      exact .returnsAgain hget hreturned
    rename_i hfirst
    split
    · rename_i hgone
      exact .outlives hget hgone
    rename_i hthere
    have hreturn := s.pool.return_giveBack (Clock.read s.ledger).1 h.wrapper (Clock.read s.ledger).2
    rcases hgiveBack :
      s.pool.giveBack (Clock.read s.ledger).1 h.wrapper (Clock.read s.ledger).2 with ⟨p', l'⟩
    rw [hgiveBack] at hreturn
    exact .returns hget (Bool.eq_false_iff.mpr hfree) (Bool.eq_false_iff.mpr hfirst)
      (Bool.eq_false_iff.mpr hthere) hgiveBack hreturn

theorem moves_goOn (k : Nat) : s.Moves (.goOn k) (s.goOn k) := by
  have hnothing : s.Moves (.goOn k) s := .nothing (by simp) (by simp) rfl
  unfold goOn
  split
  · exact hnothing
  · exact hnothing
  rename_i chore rest hget
  split
  · exact hnothing
  cases chore with
  | wakeAll => exact .wakesAll hget
  | close slot => exact .closes hget

/-- Every step of a scene is one of the moves. -/
theorem moves_step (e : Event ω) : s.Moves e (s.step e) := by
  cases e with
  | acquire username password =>
    dsimp only [step]
    split
    · exact .nothing (by simp) (by simp) rfl
    · rename_i hthere
      exact .begins (Bool.eq_false_iff.mpr hthere)
  | proceed i => exact s.moves_proceed i
  | ask j call =>
    have hnothing : s.Moves (.ask j call) s := .nothing (by simp) (by simp) rfl
    dsimp only [step, ask]
    cases s.handles[j]? with
    | none => exact hnothing
    | some h =>
      dsimp only
      split
      · exact hnothing
      split
      · exact .asks _
      · exact hnothing
  | answer k =>
    dsimp only [step, answer]
    cases hget : s.calls[k]? with
    | none => exact .nothing (by simp) (by simp) rfl
    | some c => exact .answers hget
  | giveBack j => exact s.moves_giveBack j
  | forceCloseAll =>
    dsimp only [step]
    split
    · rename_i hgone
      exact .nothing (by simp) (by simp) (by simp [tearsDown, hgone])
    · rename_i hthere
      exact .closesAll s.pool.dropped (by simpa [tearsDown] using hthere) (by simp)
  | reconfigure config settings =>
    dsimp only [step]
    split
    · rename_i hgone
      exact .nothing (by simp) (by simp) (by simp [tearsDown, hgone])
    · rename_i hthere
      cases hadopt : s.pool.adopt config settings with
      | error e =>
        refine .nothing (by simp) (by simp) ?_
        simp [tearsDown, hadopt, Except.toBool]
      | ok p =>
        have htears : s.tearsDown (.reconfigure config settings) = true := by
          simp [tearsDown, hadopt, Bool.eq_false_iff.mpr hthere, Except.toBool]
        unfold Pool.adopt at hadopt
        cases hvalidate : config.validate with
        | error e => exact absurd hadopt (by simp [hvalidate, Except.map])
        | ok u =>
          rw [hvalidate] at hadopt
          obtain rfl := Except.ok.inj hadopt
          exact .reconfigures htears
  | interrupt =>
    dsimp only [step]
    split
    · exact .nothing (by simp) (by simp) rfl
    · exact .interrupts
  | goOn k => exact s.moves_goOn k
  | drop =>
    dsimp only [step]
    split
    · rename_i hstays
      refine .nothing (by simp) (by simp) ?_
      rcases Bool.or_eq_true_iff.mp hstays with hgone | hworks
      · simp [tearsDown, hgone]
      · simp only [Bool.not_eq_true'] at hworks
        simp [tearsDown, hworks]
    · rename_i hgoes
      refine .closesAll true ?_ (by simp)
      simpa [tearsDown] using hgoes
  | disturb change => exact .disturbs change

def reclaimed (s : Scene ω) : Event ω → List Slot
  | .proceed i => s.pool.active.filter (· ∉ (s.proceed i).pool.active)
  | _ => []

end Scene
end SqlMapper
