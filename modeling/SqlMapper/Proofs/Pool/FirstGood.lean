import SqlMapper.Proofs.Pool.Failing

/-!
An acquisition with which nobody interferes picks the first good candidate, and gives up after one
more bad candidate than its limit allows. Every section brings it closer to its end, unless it waits
for ever.
-/

namespace SqlMapper

open Connection Ledger

/-- Whoever waits until a point in time sees that it has come. -/
def Clock.IsPunctual (ω : Type) [Clock ω] : Prop :=
  ∀ (t : Instant) (w : ω), t.nanos ≤ (Clock.read (Clock.waitUntil t w)).1.nanos

namespace Pool

/-- When the time has come, the connection that has been in use longest is overdue. -/
theorem isOverdue_of_overdueAt {p : Pool} {now t : Instant} (h : p.overdueAt = some t)
    (hnow : t.nanos ≤ now.nanos) : ∃ oldest ∈ p.active.head?, p.isOverdue now oldest = true := by
  unfold overdueAt at h
  obtain ⟨oldest, hhead, h⟩ := Option.bind_eq_some_iff.mp h
  obtain ⟨late, hlate, h⟩ := Option.bind_eq_some_iff.mp h
  unfold Instant.after? at hlate h
  split at hlate
  · split at h
    · obtain rfl := Option.some.inj hlate
      obtain rfl := Option.some.inj h
      refine ⟨oldest, hhead, decide_eq_true ?_⟩
      have hmilli : (Duration.ofMillis 1).nanos = 1000000 := by decide
      rw [hmilli] at hnow
      simp only [Instant.since] at hnow ⊢
      omega
    · exact nomatch h
  · exact nomatch hlate

/-- Whoever wakes at the time that the pool gives finds a connection to take, or the deadline has
come. -/
theorem due_of_wakeTime {p : Pool} {deadline : Option Instant} {now t : Instant}
    (h : p.wakeTime deadline = some t) (hnow : t.nanos ≤ now.nanos) :
    (∃ d, deadline = some d ∧ d.nanos ≤ now.nanos) ∨
      ∃ oldest ∈ p.active.head?, p.isOverdue now oldest = true := by
  unfold wakeTime at h
  cases hoverdue : p.overdueAt with
  | none =>
    rw [hoverdue] at h
    exact .inl ⟨t, by simpa using h, hnow⟩
  | some late =>
    cases deadline with
    | none =>
      rw [hoverdue] at h
      obtain rfl := Option.some.inj h
      exact .inr (isOverdue_of_overdueAt hoverdue hnow)
    | some d =>
      rw [hoverdue] at h
      obtain rfl := Option.some.inj h
      have hmin : min late.nanos d.nanos ≤ now.nanos := hnow
      rcases (by omega : late.nanos ≤ now.nanos ∨ d.nanos ≤ now.nanos) with hlate | hd
      · exact .inr (isOverdue_of_overdueAt hoverdue hlate)
      · exact .inl ⟨d, rfl, hd⟩

end Pool

namespace Attempt

variable {ω : Type}

/-- Nobody interferes: an acquisition that has looked at the pool was not interrupted since, and one
that waits is in the queue, because there was no candidate, and wakes at the time that the pool
gives. None ends because of an interruption. -/
structure Alone (s : Attempt ω) : Prop where
  epoch : s.acquisition.phase = .starting ∨ s.pool.epoch = s.acquisition.epoch
  parked : ∀ ticket wakeAt, s.acquisition.phase = .parked ticket wakeAt →
    s.pool.parked.contains ticket = true ∧ s.pool.idle = [] ∧ s.pool.hasRoom = false ∧
      ∃ deadline, s.acquisition.deadline = some deadline ∧ wakeAt = s.pool.wakeTime deadline
  calm : s.refusals = [] → s.acquisition.result? ≠ some (.error .interrupted)

/-- An acquisition goes through its phases in this order, except that it waits or checks a candidate
again after it has met a bad one. -/
def phaseRank : Phase → Nat
  | .starting => 10
  | .parked _ _ => 9
  | .checking _ _ _ left => left.length + 4
  | .checked _ _ _ => 3
  | .discarding _ _ => 2
  | .discarded _ => 1
  | .done _ => 0

def work (limit : Nat) (a : Acquisition) : Nat := 11 * (limit - a.bad) + phaseRank a.phase

def Rests (s : Attempt ω) : Prop :=
  s.acquisition.result?.isSome = true ∨
    s.acquisition.isAsleep s.pool = true ∧ s.acquisition.wakeAt? = none

variable [Server ω] [Clock ω] {p₀ : Pool} {l₀ l : Ledger ω} {s : Attempt ω}

/-- The record changes nothing. -/
theorem advance_eq_step (s : Attempt ω) :
    (s.advance.acquisition, s.advance.pool, s.advance.ledger) =
      s.acquisition.step undisturbed s.pool s.ledger := by
  unfold advance
  dsimp only
  split
  · unfold note
    split <;> rfl
  · rfl

omit [Clock ω] in
/-- An error that a look for a candidate comes to is one of opening a connection, or of time. -/
theorem calm_note {origin : Origin} {now now' : Instant} {b : Acquisition} {q : Pool}
    {ts : List Trial} {rs : List Error}
    (hrefusals : (note origin now' (q.candidate now b.username b.password l).1
      ⟨(q.examine now b l).1, (q.examine now b l).2.1, (q.examine now b l).2.2, ts, rs⟩).refusals =
        []) :
    (q.examine now b l).1.result? ≠ some (.error .interrupted) := by
  unfold Pool.examine at hrefusals ⊢
  generalize q.candidate now b.username b.password l = r at hrefusals ⊢
  obtain ⟨e | _ | ⟨slot, reclaimed⟩, p, l'⟩ := r
  · exact absurd hrefusals (List.cons_ne_nil e rs)
  · dsimp only
    by_cases hlast : b.lastPass = true
    · rw [if_pos hlast]
      nofun
    · rw [if_neg hlast]
      nofun
  · nofun

/-- An acquisition finds that it was interrupted only after it waited. -/
theorem calm_step {a : Acquisition} {p : Pool} (hlooks : a.looks p = false)
    (hepoch : a.phase = .starting ∨ p.epoch = a.epoch) (hover : a.result? = none) :
    (a.step undisturbed p l).1.result? ≠ some (.error .interrupted) := by
  unfold Acquisition.looks at hlooks
  unfold Acquisition.step
  cases hphase : a.phase with
  | starting =>
    rw [hphase] at hlooks
    exact nomatch hlooks
  | parked ticket wakeAt =>
    rw [hphase] at hlooks
    have hsame : p.epoch = a.epoch := hepoch.resolve_left (by rw [hphase]; nofun)
    exact absurd (beq_iff_eq.mpr hsame) (Bool.eq_false_iff.mp hlooks)
  | checking slot config generation left =>
    cases left with
    | nil => nofun
    | cons test left =>
      dsimp only
      split <;> nofun
  | checked slot generation good =>
    dsimp only [Pool.conclude]
    split
    · nofun
    · split <;> nofun
  | discarding slot bad => nofun
  | discarded bad =>
    rw [hphase] at hlooks
    cases bad with
    | false => exact nomatch hlooks
    | true =>
      have hlimit : p.config.badLimit < a.bad + 1 := by simpa using hlooks
      dsimp only [Pool.resume]
      rw [if_pos rfl]
      exact (if_pos (α := Acquisition × Pool × Ledger ω) hlimit).symm ▸ nofun
  | done r =>
    rw [Acquisition.result?, hphase] at hover
    cases hover

theorem Alone.calm_advance (h : Alone s) (hover : s.acquisition.result? = none)
    (hrefusals : s.advance.refusals = []) :
    s.advance.acquisition.result? ≠ some (.error .interrupted) := by
  have hsame : s.advance.acquisition = (s.acquisition.step undisturbed s.pool s.ledger).1 :=
    congrArg Prod.fst (advance_eq_step s)
  rw [hsame]
  cases hlooks : s.acquisition.looks s.pool with
  | true =>
    obtain ⟨b, q, hturn, hstep⟩ := turns_of_looks hlooks s.ledger
    unfold advance at hrefusals
    dsimp only at hrefusals
    rw [if_pos hlooks, hstep, ← found_turns hturn] at hrefusals
    rw [hstep]
    exact calm_note hrefusals
  | false => exact calm_step hlooks h.epoch hover

theorem Alone.advance (h : Alone s) (hover : s.acquisition.result? = none) : Alone s.advance := by
  have hcalm := h.calm_advance hover
  have hsection := Acquisition.section_step s.acquisition s.pool s.ledger hover
  rw [← advance_eq_step] at hsection
  generalize s.advance = s' at hsection hcalm ⊢
  obtain ⟨a', p', l', ts, refusals⟩ := s'
  dsimp only at hsection
  cases hsection with
  | looks hturn hlooks =>
    rename_i b q
    have hepoch : q.epoch = b.epoch := by
      cases hturn with
      | enters hphase => rfl
      | wakes hphase hepoch => exact hepoch
      | outdated hphase | bad hphase => exact h.epoch.resolve_left (by rw [hphase]; nofun)
    cases hlooks with
    | picks | opens | refused | reclaims | givesUp =>
      exact ⟨.inr hepoch, fun ticket wakeAt hphase => (nomatch hphase), hcalm⟩
    | waits hidle hroom hlast hoverdue =>
      refine ⟨.inr hepoch, fun ticket wakeAt hphase => ?_, hcalm⟩
      cases hphase
      exact ⟨by simp [Pool.park], hidle, hroom, _, rfl, rfl⟩
  | interrupted hphase hepoch =>
    exact absurd (h.epoch.resolve_left (by rw [hphase]; nofun)) hepoch
  | passes hphase | failsTest hphase | finishes hphase | handsOut hphase | rejects hphase
  | closes hphase | despairs hphase =>
    exact ⟨.inr (h.epoch.resolve_left (by rw [hphase]; nofun)), fun _ _ hphase => (nomatch hphase),
      hcalm⟩

omit [Clock ω] in
/-- Whoever has waited long enough, or finds a connection to take, does not wait. -/
theorem examine_not_parked {now : Instant} {b : Acquisition} {q : Pool}
    (h : b.lastPass = true ∨ ∃ oldest ∈ q.active.head?, q.isOverdue now oldest = true)
    (ticket : Nat) (wakeAt : Option Instant) :
    (q.examine now b l).1.phase ≠ .parked ticket wakeAt := by
  have hlooks := Acquisition.looks_examine now b q l
  generalize q.examine now b l = r at hlooks
  obtain ⟨a', p', l'⟩ := r
  intro hphase
  dsimp only at hlooks hphase
  cases hlooks with
  | picks | opens | refused | reclaims | givesUp => exact nomatch hphase
  | waits hidle hroom hlast hoverdue =>
    rcases h with h | ⟨oldest, hhead, h⟩
    · exact Bool.false_ne_true (hlast.symm.trans h)
    · exact Bool.false_ne_true ((hoverdue oldest hhead).symm.trans h)

/-- Whoever waited until a time had come does not wait again. -/
theorem Alone.not_parked_of_slept {l₁ : Ledger ω} (h : Alone s) (hclock : Clock.IsPunctual ω)
    (hsleep : s.acquisition.sleep? s.pool s.ledger = some l₁) (ticket : Nat)
    (wakeAt : Option Instant) (hphase : s.acquisition.phase = .parked ticket wakeAt)
    (ticket' : Nat) (wakeAt' : Option Instant) :
    (s.acquisition.step undisturbed s.pool l₁).1.phase ≠ .parked ticket' wakeAt' := by
  obtain ⟨hparked, hidle, hroom, deadline, hdeadline, hwakeAt⟩ := h.parked ticket wakeAt hphase
  have hasleep : s.acquisition.isAsleep s.pool = true := by
    rw [Acquisition.isAsleep, hphase]
    exact hparked
  obtain ⟨t, ht, rfl⟩ : ∃ t, s.acquisition.wakeAt? = some t ∧
      Clock.waitUntil t s.ledger = l₁ := by
    rw [Acquisition.sleep?, if_pos hasleep] at hsleep
    exact Option.map_eq_some_iff.mp hsleep
  have hepoch : s.pool.epoch = s.acquisition.epoch := h.epoch.resolve_left (by rw [hphase]; nofun)
  have hwake : s.pool.wakeTime deadline = some t := by
    rw [← hwakeAt, ← ht, Acquisition.wakeAt?, hphase]
  have hnow : t.nanos ≤ (Clock.read (Clock.waitUntil t s.ledger)).1.nanos :=
    hclock t s.ledger.server
  have hdue := Pool.due_of_wakeTime hwake hnow
  unfold Acquisition.step
  rw [hphase]
  generalize Clock.read (Clock.waitUntil t s.ledger) = r at hdue ⊢
  obtain ⟨now, l₂⟩ := r
  dsimp only [Pool.wake]
  rw [if_neg (not_not.mpr hepoch), hdeadline]
  refine examine_not_parked ?_ ticket' wakeAt'
  rcases hdue with ⟨d, rfl, hd⟩ | hoverdue
  · exact .inl (by simp [hd])
  · exact .inr hoverdue

omit [Server ω] [Clock ω] in
/-- An acquisition that is not over has not met more bad candidates than its limit allows, and has
no candidate that is out of date. -/
theorem Course.unfinished (h : Course p₀ l₀ s) (hover : s.acquisition.result? = none) :
    s.acquisition.bad ≤ p₀.config.badLimit ∧ s.acquisition.phase ≠ .discarded false := by
  cases h with
  | looking hphase hleft hmet =>
    refine ⟨hmet.bad ▸ hmet.within, ?_⟩
    rcases hphase with hphase | ⟨ticket, wakeAt, hphase⟩ <;> rw [hphase] <;> nofun
  | checking hphase hleft hmet | checked hphase hverdict hleft hmet
  | discarding hphase hverdict hleft hmet | discarded hphase hverdict hleft hmet =>
    refine ⟨hmet.bad ▸ hmet.within, ?_⟩
    rw [hphase]
    nofun
  | failed hphase | handedOut hphase =>
    rw [Acquisition.result?, hphase] at hover
    cases hover

theorem goOn_of_slept {l₁ : Ledger ω} (hover : s.acquisition.result? = none)
    (hsleep : s.acquisition.sleep? s.pool s.ledger = some l₁) :
    s.goOn = { s with ledger := l₁ }.advance := by
  unfold goOn
  rw [hover]
  dsimp only
  rw [hsleep]

omit [Clock ω] in
theorem phaseRank_of_looks {now : Instant} {a b : Acquisition} {p q : Pool} {w w' : Ledger ω}
    (h : b.Looks now q w a p w') :
    a.bad = b.bad ∧ (phaseRank a.phase ≤ 7 ∨ ∃ ticket wakeAt, a.phase = .parked ticket wakeAt) := by
  cases h with
  | picks | opens | reclaims => exact ⟨rfl, .inl (Nat.le_refl 7)⟩
  | refused | givesUp => exact ⟨rfl, .inl (Nat.zero_le 7)⟩
  | waits => exact ⟨rfl, .inr ⟨_, _, rfl⟩⟩

omit [Server ω] [Clock ω] in
theorem phaseRank_of_result {a : Acquisition} {r : Except Error Handle} (h : a.result? = some r) :
    phaseRank a.phase = 0 := by
  unfold Acquisition.result? at h
  split at h
  · rename_i hphase
    rw [hphase, phaseRank]
  · exact nomatch h

/-- Every section brings the end closer. -/
theorem work_goOn {l₁ : Ledger ω} (hcourse : Course p₀ l₀ s) (h : Alone s)
    (hclock : Clock.IsPunctual ω)
    (hover : s.acquisition.result? = none)
    (hsleep : s.acquisition.sleep? s.pool s.ledger = some l₁) :
    work p₀.config.badLimit s.goOn.acquisition < work p₀.config.badLimit s.acquisition := by
  have hgood := (hcourse.unfinished hover).2
  have hbad := fun hover' => (hcourse.goOn.unfinished hover').1
  have hsection := Acquisition.section_step s.acquisition s.pool l₁ hover
  have hparked := h.not_parked_of_slept hclock hsleep
  rw [goOn_of_slept hover hsleep] at hbad ⊢
  rw [← advance_eq_step { s with ledger := l₁ }] at hsection hparked
  generalize ({ s with ledger := l₁ } : Attempt ω).advance = s' at hsection hbad hparked ⊢
  obtain ⟨a', p', l', ts, refusals⟩ := s'
  dsimp only at hsection hbad hparked ⊢
  unfold work
  cases hsection with
  | looks hturn hlooks =>
    obtain ⟨hsame, hrank⟩ := phaseRank_of_looks hlooks
    cases hturn with
    | enters hphase =>
      have hstart : phaseRank s.acquisition.phase = 10 := by rw [hphase, phaseRank]
      have hbad' : a'.bad = s.acquisition.bad := hsame
      rcases hrank with hrank | ⟨ticket, wakeAt, hwaits⟩
      · omega
      · rw [hwaits, phaseRank]
        omega
    | wakes hphase hepoch =>
      have hwaited : phaseRank s.acquisition.phase = 9 := by rw [hphase, phaseRank]
      have hbad' : a'.bad = s.acquisition.bad := hsame
      have hrank : phaseRank a'.phase ≤ 7 := hrank.resolve_right fun ⟨ticket, wakeAt, hwaits⟩ =>
        hparked _ _ hphase ticket wakeAt hwaits
      omega
    | outdated hphase => exact absurd hphase hgood
    | bad hphase =>
      have hclosed : phaseRank s.acquisition.phase = 1 := by rw [hphase, phaseRank]
      have hbad' : a'.bad = s.acquisition.bad + 1 := hsame
      have hover' : a'.bad ≤ p₀.config.badLimit ∨ phaseRank a'.phase = 0 := by
        cases hresult : a'.result? with
        | none => exact .inl (hbad hresult)
        | some r => exact .inr (phaseRank_of_result hresult)
      have hrank : phaseRank a'.phase ≤ 9 := by
        rcases hrank with hrank | ⟨ticket, wakeAt, hwaits⟩
        · omega
        · rw [hwaits, phaseRank]
      omega
  | interrupted hphase hepoch =>
    rw [hphase]
    simp [Acquisition.fail, Acquisition.goTo, phaseRank]
  | passes hphase | failsTest hphase | finishes hphase | handsOut hphase | rejects hphase
  | closes hphase =>
    rw [hphase]
    simp [Acquisition.goTo, Pool.register, phaseRank]
  | despairs hphase =>
    rw [hphase]
    simp only [Acquisition.fail, Acquisition.goTo, phaseRank]
    omega

/-- What is done section by section, and recorded, is what is done at one go. -/
theorem exists_run_rests
    (hclock : Clock.IsPunctual ω)
    {sections : Nat} (hcourse : Course p₀ l₀ s) (h : Alone s)
    (hwork : work p₀.config.badLimit s.acquisition < sections) :
    ∃ k, Alone (s.run (List.replicate k .goesOn)) ∧ Rests (s.run (List.replicate k .goesOn)) ∧
      s.acquisition.run undisturbed sections s.pool s.ledger =
        (s.run (List.replicate k .goesOn)).acquisition.result?.map fun r =>
          (r, (s.run (List.replicate k .goesOn)).pool,
            (s.run (List.replicate k .goesOn)).ledger) := by
  induction sections generalizing s with
  | zero => exact absurd hwork (Nat.not_lt_zero _)
  | succ sections ih =>
    unfold Acquisition.run
    cases hover : s.acquisition.result? with
    | some r =>
      refine ⟨0, h, .inl (by rw [List.replicate_zero, run, List.foldl_nil, hover]; rfl), ?_⟩
      rw [List.replicate_zero, run, List.foldl_nil, hover]
      rfl
    | none =>
      dsimp only
      cases hsleep : s.acquisition.sleep? s.pool s.ledger with
      | none =>
        refine ⟨0, h, .inr ?_, ?_⟩
        · rw [List.replicate_zero, run, List.foldl_nil]
          unfold Acquisition.sleep? at hsleep
          split at hsleep
          · rename_i hasleep
            exact ⟨hasleep, Option.map_eq_none_iff.mp hsleep⟩
          · exact nomatch hsleep
        · rw [List.replicate_zero, run, List.foldl_nil, hover]
          rfl
      | some l₁ =>
        have hstep := advance_eq_step { s with ledger := l₁ }
        rw [← goOn_of_slept hover hsleep] at hstep
        dsimp only at hstep ⊢
        rw [← hstep]
        have hless := work_goOn hcourse h hclock hover hsleep
        have hnext : Alone s.goOn := by
          rw [goOn_of_slept hover hsleep]
          exact Alone.advance (s := { s with ledger := l₁ }) ⟨h.epoch, h.parked, h.calm⟩ hover
        obtain ⟨k, hk⟩ := ih hcourse.goOn hnext (by omega)
        refine ⟨k + 1, ?_⟩
        rw [List.replicate_succ, run, List.foldl_cons]
        exact hk

def failures (ts : List Trial) : Nat := ts.countP (·.verdict == some false)

theorem failures_of_forall {ts : List Trial} (h : ∀ t ∈ ts, t.verdict = some false) :
    failures ts = ts.length :=
  List.countP_eq_length.mpr fun t ht => beq_iff_eq.mpr (h t ht)

inductive Ends (p : Pool) (s : Attempt ω) : Option (Except Error Handle) → Prop where
  | handsOut {t : Trial} {ts : List Trial} {slot : Slot} (htrials : s.trials = t :: ts)
      (hgood : t.verdict = some true) (hbad : ∀ t' ∈ ts, t'.verdict = some false)
      (hwithin : ts.length ≤ p.config.badLimit) (hwrapper : slot.wrapper = t.slot.wrapper)
      (hphysical : slot.physical = t.slot.physical)
      (hactive : s.pool.active = (p.without s.trials).active ++ [slot]) :
    Ends p s (some (.ok slot.handle))
  | refused {e : Error} (hbad : ∀ t ∈ s.trials, t.verdict = some false)
      (hwithin : s.trials.length ≤ p.config.badLimit) (hrefused : s.refusals = [e])
      (hactive : s.pool.active = (p.without s.trials).active) :
    Ends p s (some (.error e))
  | timedOut {now : Instant} (hbad : ∀ t ∈ s.trials, t.verdict = some false)
      (hwithin : s.trials.length ≤ p.config.badLimit)
      (hnone : (p.without s.trials).Exhausted now)
      (hactive : s.pool.active = (p.without s.trials).active) :
    Ends p s (some (.error (.poolTimeout (now.since s.acquisition.startedAt).millis)))
  | tooMany (hbad : ∀ t ∈ s.trials, t.verdict = some false)
      (hlimit : s.trials.length = p.config.badLimit + 1)
      (hactive : s.pool.active = (p.without s.trials).active) :
    Ends p s
      (some (.error (Pool.tooManyBad (p.config.badLimit + 1) p.config.badLimit)))
  | waits (hbad : ∀ t ∈ s.trials, t.verdict = some false)
      (hwithin : s.trials.length ≤ p.config.badLimit) (hidle : (p.without s.trials).idle = [])
      (hroom : (p.without s.trials).hasRoom = false)
      (hactive : s.pool.active = (p.without s.trials).active) :
    Ends p s none

structure Picks (p : Pool) (l : Ledger ω) (s : Attempt ω) (r? : Option (Except Error Handle)) :
    Prop where
  ends : Ends p s r?
  inOrder : InOrder p l s.trials
  idle : s.pool.idle = (p.without s.trials).idle
  pending : s.pool.pending = p.pending
  live : ∀ wrapper, s.pool.isLive wrapper = true →
    (∃ h, r? = some (.ok h) ∧ h.wrapper = wrapper) ∨ Spared p s.trials wrapper
  closed : ∃ es, s.ledger.entries = es ++ l.entries ∧ ∀ t ∈ s.trials, t.verdict = some false →
    isClosed t.slot.physical.connection es = true
  counted : s.pool.tallies.bad = p.tallies.bad + failures s.trials
  tooMany : (∃ text, r? = some (.error (.acquisition text))) ∧ s.refusals = [] ↔
    failures s.trials = p.config.badLimit + 1

omit [Server ω] [Clock ω] in
/-- The trials come in the pool's order, and there is one more of them at most than the limit allows
bad ones. -/
theorem Course.inOrder (h : Course p₀ l₀ s) :
    InOrder p₀ l₀ s.trials ∧ s.trials.length ≤ p₀.config.badLimit + 1 := by
  cases h with
  | looking hphase hleft hmet => exact ⟨hleft.inOrder, Nat.le_succ_of_le hmet.within⟩
  | checking hphase hleft hmet | checked hphase hverdict hleft hmet
  | discarding hphase hverdict hleft hmet | discarded hphase hverdict hleft hmet
  | handedOut hphase hverdict hwrapper hphysical hleft hmet hgives =>
    exact ⟨hleft.inOrder, Nat.succ_le_succ hmet.within⟩
  | failed hphase hleft hfailed hcounted hfailure =>
    refine ⟨hleft.inOrder, ?_⟩
    cases hfailure with
    | refused hwithin | interrupted hwithin | timedOut hwithin hnone =>
      exact Nat.le_succ_of_le hwithin
    | tooMany hlimit => exact Nat.le_of_eq hlimit

omit [Server ω] [Clock ω] in
theorem Failed.picks {e : Error} (h : Failed p₀ l₀ s e)
    (hcalm : s.refusals = [] → e ≠ .interrupted) : Picks p₀ l₀ s (some (.error e)) := by
  obtain ⟨hleft, hfailed, hcounted, hfailure⟩ := h
  have hall := failures_of_forall hfailed
  have hends : Ends p₀ s (some (.error e)) ∧
      ((∃ text, some (Except.error e) = some (.error (.acquisition text) : Except Error Handle)) ∧
        s.refusals = [] ↔ s.trials.length = p₀.config.badLimit + 1) := by
    generalize hrefusals : s.refusals = rs at hfailure hcalm
    cases hfailure with
    | refused hwithin =>
      refine ⟨.refused hfailed hwithin hrefusals hleft.active, iff_of_false ?_ (by omega)⟩
      exact fun ⟨_, h⟩ => List.cons_ne_nil e [] h
    | interrupted hwithin => exact absurd rfl (hcalm rfl)
    | timedOut hwithin hnone =>
      refine ⟨.timedOut hfailed hwithin hnone hleft.active, iff_of_false ?_ (by omega)⟩
      exact fun ⟨⟨_, h⟩, _⟩ => nomatch h
    | tooMany hlimit =>
      refine ⟨?_, fun _ => hlimit, fun _ => ⟨⟨_, rfl⟩, rfl⟩⟩
      rw [hlimit]
      exact .tooMany hfailed hlimit hleft.active
  obtain ⟨es, hentries, hclosed⟩ := hleft.entries
  exact {
    ends := hends.1
    inOrder := hleft.inOrder
    idle := hleft.idle
    pending := hleft.pending
    live := fun wrapper hlive => .inr ((hleft.live wrapper hlive).resolve_left nofun)
    closed := ⟨es, hentries, fun t ht _ => hclosed t ht⟩
    counted := hall ▸ hcounted
    tooMany := hall ▸ hends.2 }

omit [Server ω] [Clock ω] in
theorem Course.picks_of_asleep (hcourse : Course p₀ l₀ s) (h : Alone s)
    (hasleep : s.acquisition.isAsleep s.pool = true) : Picks p₀ l₀ s none := by
  obtain ⟨ticket, wakeAt, hphase⟩ :
      ∃ ticket wakeAt, s.acquisition.phase = .parked ticket wakeAt := by
    unfold Acquisition.isAsleep at hasleep
    split at hasleep
    · exact ⟨_, _, by assumption⟩
    · exact nomatch hasleep
  obtain ⟨-, hidle, hroom, -⟩ := h.parked ticket wakeAt hphase
  cases hcourse with
  | looking hlooking hleft hmet =>
    have hall := failures_of_forall hmet.failed
    obtain ⟨es, hentries, hclosed⟩ := hleft.entries
    exact {
      ends := .waits hmet.failed hmet.within (hleft.idle ▸ hidle) (hleft.hasRoom_eq ▸ hroom)
        hleft.active
      inOrder := hleft.inOrder
      idle := hleft.idle
      pending := hleft.pending
      live := fun wrapper hlive => .inr ((hleft.live wrapper hlive).resolve_left nofun)
      closed := ⟨es, hentries, fun t ht _ => hclosed t ht⟩
      counted := hall ▸ hmet.counted
      tooMany := by
        have hwithin := hmet.within
        refine iff_of_false ?_ (by rw [hall]; omega)
        rintro ⟨⟨text, h⟩, -⟩
        cases h }
  | checking hother | checked hother | discarding hother | discarded hother | failed hother
  | handedOut hother => exact nomatch hphase.symm.trans hother

omit [Server ω] [Clock ω] in
/-- An acquisition that hands out a connection has picked the first good candidate of the pool's
order. -/
theorem Course.picks_of_handedOut (hcourse : Course p₀ l₀ s) {handle : Handle}
    (hresult : s.acquisition.result? = some (.ok handle)) : Picks p₀ l₀ s (some (.ok handle)) := by
  unfold Acquisition.result? at hresult
  cases hcourse with
  | @handedOut a b p q l t ts slot hphase hverdict hwrapper hphysical hleft hmet hgives =>
    rw [hphase] at hresult
    cases hresult
    have hfailures : failures (t :: ts) = ts.length := by
      rw [failures, List.countP_cons, hverdict, if_neg (by decide)]
      exact failures_of_forall hmet.failed
    obtain ⟨es, hentries, hclosed⟩ := hleft.entries
    have hlive (wrapper : Nat) (hlive : p.isLive wrapper = true) :
        q.isLive wrapper = true := by
      rwa [Pool.isLive, ← hgives.live]
    exact {
      ends := .handsOut rfl hverdict hmet.failed hmet.within hwrapper hphysical
        (hleft.active ▸ hgives.active)
      inOrder := hleft.inOrder
      idle := hgives.idle.trans hleft.idle
      pending := by
        have hpending : q.pending = p₀.pending + 1 := hleft.pending
        have hafter : p.pending = q.pending - 1 := hgives.pending
        change p.pending = p₀.pending
        omega
      live := fun wrapper hlives => (hleft.live wrapper (hlive wrapper hlives)).imp_left
        fun hsame => ⟨slot.handle, rfl, hwrapper.trans (Option.some.inj hsame)⟩
      closed := by
        refine ⟨es, hentries, List.forall_mem_cons.mpr ⟨fun hbad => ?_, ?_⟩⟩
        · exact absurd (hverdict.symm.trans hbad) (by decide)
        · exact fun t' ht' _ => hclosed t' ht'
      counted := hfailures ▸ hgives.bad.trans hmet.counted
      tooMany := by
        have hwithin := hmet.within
        refine iff_of_false ?_ (by rw [hfailures]; omega)
        rintro ⟨⟨text, h⟩, -⟩
        cases h }
  | failed hphase =>
    rw [hphase] at hresult
    cases hresult
  | looking hphase =>
    rcases hphase with hphase | ⟨ticket, wakeAt, hphase⟩ <;> rw [hphase] at hresult <;>
      cases hresult
  | checking hphase | checked hphase | discarding hphase | discarded hphase =>
    rw [hphase] at hresult
    cases hresult

omit [Server ω] [Clock ω] in
/-- What is done when an attempt with which nobody interferes rests. -/
theorem Course.picks (hcourse : Course p₀ l₀ s) (h : Alone s) (hrests : Rests s) :
    Picks p₀ l₀ s s.acquisition.result? := by
  cases hresult : s.acquisition.result? with
  | none =>
    obtain ⟨hasleep, hnever⟩ := hrests.resolve_left (by rw [hresult]; nofun)
    exact hcourse.picks_of_asleep h hasleep
  | some r =>
    cases r with
    | error e =>
      refine (hcourse.failed_of_result hresult).picks fun hrefusals he => ?_
      exact h.calm hrefusals (he ▸ hresult)
    | ok handle => exact hcourse.picks_of_handedOut hresult

/-- An acquisition with which nobody interferes picks the first good candidate. However many of its
sections have been run, it has tried candidates in the pool's order, the idle connections before new
ones and those before the ones that are overdue, and at most one more than its limit. In the end, it
has handed out the first that was good, or a connection could not be opened, or there was no other
candidate when its time was up, or it met one more bad candidate than its limit, and it fails with
an acquisition error just then; or it waits for ever. Every bad candidate was closed and counted.
The limit is the sum of two sizes, which wraps around if it does not fit into 64 bits. -/
theorem acquire_picks_first_good
    (hclock : Clock.IsPunctual ω)
    (username password : Option String) (p : Pool) (l : Ledger ω) :
    (∀ k, let s := (begin username password p l).run (List.replicate k .goesOn)
      InOrder p l s.trials ∧ s.trials.length ≤ p.config.badLimit + 1) ∧
    (∃ k r?, let s := (begin username password p l).run (List.replicate k .goesOn)
      p.acquire undisturbed username password l = r?.map (fun r => (r, s.pool, s.ledger)) ∧
        Picks p l s r?) ∧
    (p.config.maxIdle.toNat + p.config.badTolerance.toNat < Nat.pow 2 64 →
      p.config.badLimit = p.config.maxIdle.toNat + p.config.badTolerance.toNat) := by
  have hcourse := course_begin username password p l
  refine ⟨fun k => (hcourse.run (List.replicate k .goesOn)).inOrder, ?_, fun hfits => ?_⟩
  · have hbegins : Alone (begin username password p l) := ⟨.inl rfl, nofun, nofun⟩
    have hwork : work p.config.badLimit (begin username password p l).acquisition <
        Acquisition.sectionBound := by
      have hlimit : p.config.badLimit < 2 ^ 64 :=
        (p.config.maxIdle + p.config.badTolerance).toNat_lt
      change 11 * (p.config.badLimit - 0) + 10 < 2 ^ 70
      omega
    obtain ⟨k, halone, hrests, hrun⟩ := exists_run_rests hclock hcourse hbegins hwork
    exact ⟨k, _, hrun, (hcourse.run _).picks halone hrests⟩
  · rw [PoolConfig.badLimit, UInt64.toNat_add]
    exact Nat.mod_eq_of_lt hfits

def serving : Ledger (Recorder MemoryServer) := .start (.start (MemoryServer.start false))

/-- The idle connection and one that is taken from its holder are bad, and then there is room for a
new one, which is good. -/
theorem picks_first_good_third :
    Clock.IsPunctual (Recorder MemoryServer) ∧
      ∃ k h, let s := (begin none none stranded serving).run (List.replicate k .goesOn)
        stranded.acquire undisturbed none none serving = some (.ok h, s.pool, s.ledger) ∧
          Picks stranded serving s (some (.ok h)) ∧ failures s.trials = 2 ∧
          s.pool.active.map (·.wrapper) = [3, h.wrapper] := by
  have hclock : Clock.IsPunctual (Recorder MemoryServer) := fun t w =>
    Nat.le_succ_of_le (Nat.le_max_right w.now.nanos t.nanos)
  refine ⟨hclock, ?_⟩
  obtain ⟨-, ⟨k, r?, hacquire, hpicks⟩, -⟩ :=
    acquire_picks_first_good hclock none none stranded serving
  have hresult : (stranded.acquire undisturbed none none serving).map
      (fun x => (x.1.toOption.map (·.wrapper), x.2.1.tallies.bad, x.2.1.active.map (·.wrapper))) =
        some (some 5, 2, [3, 5]) := by decide +kernel
  rw [hacquire] at hresult
  cases r? with
  | none => exact nomatch hresult
  | some r =>
    obtain ⟨hwrapper, hbad, hactive⟩ :
        r.toOption.map (·.wrapper) = some 5 ∧ _ = 2 ∧ _ = [3, 5] := by
      simpa only [Option.map_some, Option.some.injEq, Prod.mk.injEq] using hresult
    cases r with
    | error e => exact nomatch hwrapper
    | ok h =>
      have hfive : h.wrapper = 5 := Option.some.inj hwrapper
      have hcounted := hpicks.counted
      have hnone : stranded.tallies.bad = 0 := rfl
      exact ⟨k, h, hacquire, hpicks, by omega, hfive ▸ hactive⟩

def overflowing : Pool :=
  { Pool.start (.ofUrl "")
      { PoolConfig.standard with maxIdle := 0xffffffffffffffff, badTolerance := 1 } with
    idle := [lost 1]
    wrappers := 1
    physicals := 1
    live := [1] }

/-- The sum wraps around, and the acquisition fails after one bad candidate. -/
theorem gives_up_after_one :
    let s := (begin none none overflowing serving).run (List.replicate 6 .goesOn)
    overflowing.config.validate = .ok () ∧
      s.acquisition.result? = some (.error (Pool.tooManyBad 1 0)) ∧ failures s.trials = 1 ∧
      failures s.trials <
        overflowing.config.maxIdle.toNat + overflowing.config.badTolerance.toNat + 1 := by
  decide

end Attempt
end SqlMapper
