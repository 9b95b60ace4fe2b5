import SqlMapper.Proofs.Pool.Transfers

/-!
Everything that one section of an acquisition, or one return, can do to a pool, with what was tested
on the way. A proof about a section goes through these cases and never looks at the program.
-/

namespace SqlMapper

open Connection

variable {ω : Type}

namespace Acquisition

/-- How an acquisition comes to look for a candidate: as `b`, in a pool `q` which differs from the
one before only in who waits and in what was counted. -/
inductive Turns (now : Instant) (a : Acquisition) (p : Pool) : Acquisition → Pool → Prop where
  | enters (hphase : a.phase = .starting) : Turns now a p { a with epoch := p.epoch } p
  | wakes {ticket : Nat} {wakeAt : Option Instant} {waitTime : Duration} {lastPass : Bool}
      (hphase : a.phase = .parked ticket wakeAt) (hepoch : p.epoch = a.epoch) :
    Turns now a p { a with waitingSince := some now, lastPass := lastPass }
      { p with
        parked := p.parked.filter (· != ticket)
        tallies := { p.tallies with waitTime := waitTime } }
  | outdated (hphase : a.phase = .discarded false) : Turns now a p a p.notifyOne
  | bad (hphase : a.phase = .discarded true) :
    Turns now a p { a with bad := a.bad + 1 } p.notifyOne.countBad

theorem Turns.keeps {now : Instant} {a b : Acquisition} {p q : Pool} (h : a.Turns now p b q) :
    (b.username = a.username ∧ b.password = a.password) ∧ q.idle = p.idle ∧ q.active = p.active ∧
      q.settings = p.settings ∧ q.generation = p.generation := by
  cases h <;> exact ⟨⟨rfl, rfl⟩, rfl, rfl, rfl, rfl⟩

inductive Looks [Server ω] (now : Instant) (b : Acquisition) (q : Pool) (w : ω) :
    Acquisition → Pool → ω → Prop where
  | picks {slot : Slot} {rest : List Slot} (hidle : q.idle = slot :: rest) :
    Looks now b q w (b.goTo (.checking slot q.config q.generation (Slot.tests false)))
      { q with idle := rest, pending := q.pending + 1 } w
  | opens {connection : Nat} {w' : ω} (hidle : q.idle = []) (hroom : q.hasRoom = true)
      (hconnect : (q.settings.connect b.username b.password).run w = (.ok connection, w')) :
    Looks now b q w
      (b.goTo (.checking (q.newSlot now connection).1 q.config q.generation (Slot.tests false)))
      { (q.newSlot now connection).2 with pending := q.pending + 1 } w'
  | refused {e : Error} {w' : ω} (hidle : q.idle = []) (hroom : q.hasRoom = true)
      (hconnect : (q.settings.connect b.username b.password).run w = (.error e, w')) :
    Looks now b q w (b.fail e) q w'
  | reclaims {oldest : Slot} {rest : List Slot} (hidle : q.idle = []) (hroom : q.hasRoom = false)
      (hactive : q.active = oldest :: rest) (hoverdue : q.isOverdue now oldest = true) :
    Looks now b q w
      (b.goTo (.checking (q.reclaim now oldest rest).1 q.config q.generation (Slot.tests true)))
      { (q.reclaim now oldest rest).2 with pending := q.pending + 1 } w
  | waits (hidle : q.idle = []) (hroom : q.hasRoom = false) (hlast : b.lastPass = false)
      (hoverdue : ∀ oldest ∈ q.active.head?, q.isOverdue now oldest = false) :
    Looks now b q w (q.park now b).1 (q.park now b).2 w
  | givesUp {e : Error} (hidle : q.idle = []) (hroom : q.hasRoom = false)
      (hlast : b.lastPass = true)
      (hoverdue : ∀ oldest ∈ q.active.head?, q.isOverdue now oldest = false) :
    Looks now b q w (b.fail e) q w

inductive Section [Server ω] (now : Instant) (a : Acquisition) (p : Pool) (w : ω) :
    Acquisition → Pool → ω → Prop where
  | looks {b a' : Acquisition} {q p' : Pool} {w' : ω} (hturn : a.Turns now p b q)
      (hlooks : b.Looks now q w a' p' w') :
    Section now a p w a' p' w'
  | interrupted {ticket : Nat} {wakeAt : Option Instant} {waitTime : Duration}
      (hphase : a.phase = .parked ticket wakeAt) (hepoch : p.epoch ≠ a.epoch) :
    Section now a p w ({ a with waitingSince := some now }.fail .interrupted)
      { p with
        parked := p.parked.filter (· != ticket)
        tallies := { p.tallies with waitTime := waitTime } } w
  | passes {slot : Slot} {config : PoolConfig} {generation : Nat} {test : Slot.Test}
      {left : List Slot.Test} {w' : ω}
      (hphase : a.phase = .checking slot config generation (test :: left))
      (htest : slot.passes config now (p.isLive slot.wrapper) test w = (true, w')) :
    Section now a p w (a.goTo (.checking slot config generation left)) p w'
  | failsTest {slot : Slot} {config : PoolConfig} {generation : Nat} {test : Slot.Test}
      {left : List Slot.Test} {w' : ω}
      (hphase : a.phase = .checking slot config generation (test :: left))
      (htest : slot.passes config now (p.isLive slot.wrapper) test w = (false, w')) :
    Section now a p w (a.goTo (.checked slot generation false)) p w'
  | finishes {slot : Slot} {config : PoolConfig} {generation : Nat}
      (hphase : a.phase = .checking slot config generation []) :
    Section now a p w (a.goTo (.checked slot generation true)) p w
  | handsOut {slot : Slot} (hphase : a.phase = .checked slot p.generation true) :
    Section now a p w ({ p with pending := p.pending - 1 }.register now slot a).1
      ({ p with pending := p.pending - 1 }.register now slot a).2 w
  | rejects {slot : Slot} {generation : Nat} {good bad : Bool}
      (hphase : a.phase = .checked slot generation good)
      (hbad : bad = true ↔ p.generation = generation)
      (hgood : bad = true → good = false) :
    Section now a p w (a.goTo (.discarding slot bad))
      ({ p with pending := p.pending - 1 }.invalidate slot.wrapper) w
  | closes {slot : Slot} {bad : Bool} (hphase : a.phase = .discarding slot bad) :
    Section now a p w (a.goTo (.discarded bad)) p
      (closeQuietly slot.physical.connection w).2
  | despairs {e : Error} (hphase : a.phase = .discarded true) :
    Section now a p w ({ a with bad := a.bad + 1 }.fail e) p.notifyOne.countBad w

variable [Server ω]

theorem looks_examine (now : Instant) (b : Acquisition) (q : Pool) (w : ω) :
    b.Looks now q w (q.examine now b w).1 (q.examine now b w).2.1 (q.examine now b w).2.2 := by
  have hchoice := q.candidate_choice now b.username b.password w
  unfold Pool.examine
  generalize q.candidate now b.username b.password w = r at hchoice ⊢
  cases hchoice with
  | idle hidle => exact .picks hidle
  | refused hidle hroom hconnect => exact .refused hidle hroom hconnect
  | opened hidle hroom hconnect => exact .opens hidle hroom hconnect
  | reclaimed hidle hroom hactive hoverdue => exact .reclaims hidle hroom hactive hoverdue
  | nothing hidle hroom hoverdue =>
    dsimp only
    cases hlast : b.lastPass with
    | true => exact .givesUp hidle hroom hlast hoverdue
    | false => exact .waits hidle hroom hlast hoverdue

theorem section_conclude (now : Instant) {a : Acquisition} (p : Pool) (w : ω) {slot : Slot}
    {generation : Nat} {good : Bool} (hphase : a.phase = .checked slot generation good) :
    a.Section now p w (p.conclude now slot generation good a).1
      (p.conclude now slot generation good a).2 w := by
  unfold Pool.conclude
  by_cases hgeneration : p.generation = generation
  · subst hgeneration
    cases good with
    | true =>
      dsimp only
      rw [if_neg (by simp), if_pos rfl]
      exact .handsOut hphase
    | false =>
      dsimp only
      rw [if_neg (by simp), if_neg (by simp)]
      exact .rejects hphase (by simp) (fun _ => rfl)
  -- A candidate of an earlier generation is discarded, but it is not bad.
  · dsimp only
    rw [if_pos hgeneration]
    exact .rejects hphase (by simpa using hgeneration) (fun h => absurd h (by simp))

variable [Clock ω]

/-- Every step of an acquisition is one of the sections. -/
theorem section_step (a : Acquisition) (p : Pool) (w : ω) (hover : a.result? = none) :
    a.Section (Clock.read w).1 p (Clock.read w).2 (a.step undisturbed p w).1
      (a.step undisturbed p w).2.1 (a.step undisturbed p w).2.2 := by
  unfold step
  obtain ⟨now, w⟩ := Clock.read w
  cases hphase : a.phase with
  | starting => exact .looks (.enters hphase) (looks_examine now _ p w)
  | parked ticket wakeAt =>
    dsimp only [Pool.wake]
    split
    · rename_i hepoch
      exact .interrupted hphase hepoch
    · rename_i hepoch
      exact .looks (.wakes hphase (not_not.mp hepoch)) (looks_examine now _ _ w)
  | checking slot config generation left =>
    cases left with
    | nil => exact .finishes hphase
    | cons test left =>
      dsimp only [undisturbed]
      rcases htest : slot.passes config now (p.isLive slot.wrapper) test w with ⟨_ | _, w'⟩
      · exact .failsTest hphase htest
      · exact .passes hphase htest
  | checked slot generation good => exact section_conclude now p w hphase
  | discarding slot bad => exact .closes hphase
  | discarded bad =>
    dsimp only [Pool.resume]
    cases bad with
    | true =>
      rw [if_pos rfl]
      split
      · exact .despairs hphase
      · exact .looks (.bad hphase) (looks_examine now _ _ w)
    | false =>
      rw [if_neg (by simp)]
      exact .looks (.outdated hphase) (looks_examine now _ _ w)
  | done result => exact absurd hover (by simp [result?, hphase])

end Acquisition

namespace Pool

theorem length_of_removed {slots before after : List Slot} {slot : Slot}
    (h : slots = before ++ slot :: after) : slots.length = (before ++ after).length + 1 := by
  rw [h, List.length_append, List.length_append, List.length_cons, Nat.add_assoc]

theorem subset_of_removed {slots before after : List Slot} {slot : Slot}
    (h : slots = before ++ slot :: after) : before ++ after ⊆ slots := by
  rw [h]
  exact (List.Sublist.append_left (List.sublist_cons_self slot after) before).subset

variable [Server ω]

def passesReturn (now : Instant) (slot : Slot) (p : Pool) (w : ω) : Bool :=
  p.isLive slot.wrapper && (slot.answers p.config now w).1

inductive Return (now : Instant) (wrapper : Nat) (p : Pool) (w : ω) : Pool → ω → Prop where
  | late (hnone : p.active.find? (·.wrapper == wrapper) = none) :
    Return now wrapper p w p.countBad w
  | fails {slot : Slot} {before after : List Slot} {w' : ω}
      (hfind : p.active.find? (·.wrapper == wrapper) = some slot)
      (hactive : p.active = before ++ slot :: after)
      (hcheck : p.passesReturn now slot w = false) :
    Return now wrapper p w
      ({ p with active := before ++ after }.invalidate slot.wrapper).countBad.notifyOne w'
  | keeps {slot : Slot} {before after : List Slot} {time : Duration} {w' : ω}
      (hfind : p.active.find? (·.wrapper == wrapper) = some slot)
      (hactive : p.active = before ++ slot :: after)
      (hcheck : p.passesReturn now slot w = true) (hroom : p.idle.length < p.config.maxIdle.toNat)
      (hfingerprint : slot.fingerprint = p.fingerprint) :
    Return now wrapper p w
      ({ (({ p with active := before ++ after }.countCheckout time).rewrap slot).2 with
        idle := p.idle ++
          [(({ p with active := before ++ after }.countCheckout time).rewrap slot).1] }.notifyOne)
      w'
  | closes {slot : Slot} {before after : List Slot} {time : Duration} {w' : ω}
      (hfind : p.active.find? (·.wrapper == wrapper) = some slot)
      (hactive : p.active = before ++ slot :: after)
      (hcheck : p.passesReturn now slot w = true) :
    Return now wrapper p w
      (({ p with active := before ++ after }.countCheckout time).invalidate slot.wrapper).notifyOne
      w'

/-- Giving a connection back is one of the returns. -/
theorem return_giveBack (now : Instant) (wrapper : Nat) (p : Pool) (w : ω) :
    p.Return now wrapper w (p.giveBack now wrapper w).1 (p.giveBack now wrapper w).2 := by
  unfold giveBack
  cases hfind : p.active.find? (·.wrapper == wrapper) with
  | none => exact .late hfind
  | some slot =>
    obtain ⟨hwrapper, before, after, hactive, hbefore⟩ := List.find?_eq_some_iff_append.mp hfind
    obtain rfl : slot.wrapper = wrapper := by simpa using hwrapper
    have herase : p.active.eraseP (·.wrapper == slot.wrapper) = before ++ after := by
      rw [hactive, List.eraseP_append_right _ (by simpa using hbefore)]
      simp
    dsimp only
    rw [herase]
    have hlive : { p with active := before ++ after }.isLive slot.wrapper = p.isLive slot.wrapper :=
      rfl
    rw [hlive]
    by_cases h : p.isLive slot.wrapper = true
    · rw [if_pos h]
      unfold settle
      rcases hanswers : (slot.answers p.config now).run w with ⟨answers, w₁⟩
      have hcheck : p.passesReturn now slot w = answers := by
        rw [passesReturn, h, Bool.true_and]
        exact congrArg Prod.fst hanswers
      cases answers with
      | false => exact .fails hfind hactive hcheck
      | true =>
        dsimp only
        rcases slot.rollsBack.run w₁ with ⟨rolled, w₂⟩
        dsimp only
        split
        · rename_i hkeeps
          obtain ⟨⟨-, hroom⟩, hsame⟩ : (_ ∧ _) ∧ _ := by
            simpa only [keeps, Bool.and_eq_true] using hkeeps
          exact .keeps hfind hactive hcheck (of_decide_eq_true hroom) (eq_of_beq hsame)
        · exact .closes hfind hactive hcheck
    -- Its wrapper is not live, so the connection is not even asked.
    · rw [if_neg h]
      have hcheck : p.passesReturn now slot w = false := by
        rw [passesReturn, Bool.eq_false_iff.mpr h, Bool.false_and]
      exact .fails hfind hactive hcheck

end Pool

end SqlMapper
