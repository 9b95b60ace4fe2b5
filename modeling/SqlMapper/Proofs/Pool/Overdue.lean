import SqlMapper.Proofs.Pool.WakeTimes

/-!
From whom a connection is taken. An acquisition looks only at the first of the connections in use,
which is enough because they stand in the order in which they were handed out.
-/

namespace SqlMapper

variable {ω : Type}

/-- A connection may be taken from its holder: nothing is idle, there is no room for another one,
and the holder has had it for too long, and for at least as long as anybody has had one. -/
structure Pool.MayReclaim (p : Pool) (now : Instant) (slot : Slot) : Prop where
  idle : p.idle = []
  full : p.config.maxActive.toNat ≤ p.active.length + p.pending
  held : slot ∈ p.active
  overdue : p.config.maxCheckoutTime.nanos < (now.since slot.checkoutAt).nanos
  longest : ∀ other ∈ p.active,
    (now.since other.checkoutAt).nanos ≤ (now.since slot.checkoutAt).nanos

/-- Whoever got a connection earlier has had it for longer. -/
theorem Instant.since_le_since (now : Instant) {c c' : Instant} (h : c.nanos ≤ c'.nanos) :
    (now.since c').nanos ≤ (now.since c).nanos := by
  show now.nanos - c'.nanos ≤ now.nanos - c.nanos
  omega

namespace Pool

variable {p : Pool} {time : Nat} {oldest : Slot} {rest : List Slot}

theorem full_of_hasRoom (h : p.hasRoom = false) :
    p.config.maxActive.toNat ≤ p.active.length + p.pending := by
  have hnot : ¬ p.active.length + p.pending < p.config.maxActive.toNat := by
    simpa [hasRoom] using h
  omega

/-- Nobody has had a connection for longer than the first one. -/
theorem longest_head (haged : Slot.AreAged time p.active) (hactive : p.active = oldest :: rest)
    (now : Instant) {other : Slot} (hother : other ∈ p.active) :
    (now.since other.checkoutAt).nanos ≤ (now.since oldest.checkoutAt).nanos := by
  rw [hactive] at haged hother
  apply now.since_le_since
  exact haged.head_le (Nat.le_refl time) (.inl ⟨other, hother, rfl⟩)

theorem mayReclaim_head (haged : Slot.AreAged time p.active) (hidle : p.idle = [])
    (hroom : p.hasRoom = false) (hactive : p.active = oldest :: rest) {now : Instant}
    (hoverdue : p.isOverdue now oldest = true) : p.MayReclaim now oldest where
  idle := hidle
  full := full_of_hasRoom hroom
  held := hactive ▸ List.mem_cons_self
  overdue := of_decide_eq_true hoverdue
  longest := fun _ hother => longest_head haged hactive now hother

/-- As long as the first connection is not overdue, none is. -/
theorem not_isOverdue_of_head (haged : Slot.AreAged time p.active) {now : Instant}
    (hhead : ∀ first ∈ p.active.head?, p.isOverdue now first = false) {slot : Slot}
    (hslot : slot ∈ p.active) : p.isOverdue now slot = false := by
  obtain ⟨oldest, rest, hactive⟩ := List.exists_cons_of_ne_nil (List.ne_nil_of_mem hslot)
  have hfirst : p.isOverdue now oldest = false := by
    apply hhead
    rw [hactive]
    rfl
  have hlongest := longest_head haged hactive now hslot
  unfold isOverdue at hfirst ⊢
  rw [decide_eq_false_iff_not] at hfirst ⊢
  omega

end Pool

namespace Acquisition

variable {now : Instant} {a a' b : Acquisition} {p p' q : Pool} {w w' : ω}

theorem Turns.isOverdue_eq (h : a.Turns now p b q) (t : Instant) (slot : Slot) :
    q.isOverdue t slot = p.isOverdue t slot := by
  cases h <;> rfl

theorem Turns.hasRoom_eq (h : a.Turns now p b q) : q.hasRoom = p.hasRoom := by
  cases h <;> rfl

inductive Takes (now : Instant) (p : Pool) (a' : Acquisition) (p' : Pool) : Prop where
  | none (hactive : p.active ⊆ p'.active) (hticket : a'.ticket? = Option.none)
  | waits (hactive : p'.active = p.active)
      (hhead : ∀ first ∈ p.active.head?, p.isOverdue now first = false)
  | first {oldest : Slot} {rest : List Slot} (hidle : p.idle = []) (hroom : p.hasRoom = false)
      (hactive : p.active = oldest :: rest) (hoverdue : p.isOverdue now oldest = true)
      (hactive' : p'.active = rest) (hticket : a'.ticket? = Option.none)

/-- A section takes a connection from its holder only if it comes first and is overdue. -/
theorem Section.takes [Server ω] (h : a.Section now p w a' p' w') : Takes now p a' p' := by
  cases h with
  | @looks b a' q p' w' hturn hlooks =>
    obtain ⟨-, hidle, hactive, -⟩ := hturn.keeps
    have hsame : p.active ⊆ q.active := hactive ▸ List.Subset.refl _
    cases hlooks with
    | picks | opens | refused | givesUp => exact .none hsame rfl
    | reclaims hidle' hroom hactive' hoverdue =>
      have hoverdue' := (hturn.isOverdue_eq now _).symm.trans hoverdue
      have hroom' := hturn.hasRoom_eq ▸ hroom
      exact .first (hidle ▸ hidle') hroom' (hactive ▸ hactive') hoverdue' rfl rfl
    | waits hidle' hroom hlast hoverdue =>
      refine .waits hactive ?_
      intro first hfirst
      rw [← hturn.isOverdue_eq]
      exact hoverdue first (hactive ▸ hfirst)
  | interrupted | passes | failsTest | finishes | rejects | closes | despairs =>
    exact .none (List.Subset.refl _) rfl
  | handsOut => exact .none (List.subset_append_left _ _) rfl

end Acquisition

namespace Scene

variable [Server ω] [Clock ω]

structure Visit where
  now : Instant
  acquisition : Acquisition
  pool : Pool

def visit? (i : Nat) (s : Scene ω) : Option Visit :=
  s.acquisitions[i]?.bind fun a =>
    if a.result?.isSome || a.connection?.any s.isBusy then none
    else (a.sleep? s.pool s.ledger).map fun l =>
      let (a', p', _) := a.step undisturbed s.pool l
      ⟨(Clock.read l).1, a', p'⟩

variable {s : Scene ω} {i : Nat}

/-- A step of an acquisition is its next section, if there is one. -/
theorem pool_proceed (s : Scene ω) (i : Nat) :
    (s.proceed i).pool = (s.visit? i).elim s.pool Visit.pool := by
  unfold proceed visit?
  cases s.acquisitions[i]? with
  | none => rfl
  | some a =>
    rw [Option.bind_some]
    dsimp only
    split
    · rfl
    · cases a.sleep? s.pool s.ledger with
      | none => rfl
      | some l => exact pool_put _ i _

theorem takes_of_visit? {v : Visit} (h : s.visit? i = some v) :
    Acquisition.Takes v.now s.pool v.acquisition v.pool := by
  obtain ⟨a, -, ha⟩ := Option.bind_eq_some_iff.mp h
  split at ha
  · cases ha
  rename_i hready
  have hover : a.result? = none := by
    cases hresult : a.result? with
    | none => rfl
    | some r => simp [hresult] at hready
  obtain ⟨l, -, rfl⟩ := Option.map_eq_some_iff.mp ha
  exact (a.section_step s.pool l hover).takes

/-- Those who have connections have had them the longer the earlier they come, and whoever is cut
off has had one for the longest time. For every interleaving along which the clock is not turned
back: the connections in use are in the order in which they were handed out. A section of an
acquisition takes at most one of them from its holder, the first one; then nothing is idle, there is
no room for another connection, the holder has had it for too long, and nobody has had one for
longer. If an acquisition has to wait, nobody was cut off for it, and nobody has had a connection
for too long. -/
theorem run_reclaims_longest_held (settings : ConnectionSettings) (config : PoolConfig) (server : ω)
    (events : List (Event ω))
    (hclock : (start settings config server).turnsBackIn events = false) :
    let s := (start settings config server).run events
    (s.pool.active.Pairwise fun x y => x.checkoutAt.nanos ≤ y.checkoutAt.nanos) ∧
      ∀ i, (∀ slot ∈ s.reclaimed (.proceed i), ∃ v ∈ s.visit? i,
          s.pool.MayReclaim v.now slot ∧
            s.pool.active = slot :: (s.step (.proceed i)).pool.active) ∧
        ∀ v ∈ s.visit? i, v.acquisition.ticket?.isSome = true →
          s.reclaimed (.proceed i) = [] ∧
            ∀ slot ∈ s.pool.active, s.pool.isOverdue v.now slot = false := by
  intro s
  have haged : Slot.AreAged s.time s.pool.active :=
    ((isTimely_start settings config server).run events hclock).aged
  refine ⟨haged.sorted, fun i => ⟨?_, ?_⟩⟩
  · intro slot hslot
    obtain ⟨hheld, htaken⟩ : slot ∈ s.pool.active ∧ slot ∉ (s.proceed i).pool.active := by
      simpa [reclaimed] using hslot
    have hpool := s.pool_proceed i
    cases hvisit : s.visit? i with
    | none =>
      rw [hvisit] at hpool
      exact absurd (hpool ▸ hheld) htaken
    | some v =>
      rw [hvisit] at hpool
      have hafter : (s.proceed i).pool = v.pool := hpool
      rw [hafter] at htaken
      refine ⟨v, rfl, ?_⟩
      rw [show (s.step (.proceed i)).pool = v.pool from hafter]
      cases takes_of_visit? hvisit with
      | none hactive => exact absurd (hactive hheld) htaken
      | waits hactive => exact absurd (hactive ▸ hheld) htaken
      | @first oldest rest hidle hroom hactive hoverdue hrest =>
        obtain rfl : slot = oldest := by
          rw [hactive] at hheld
          exact (List.mem_cons.mp hheld).resolve_right (hrest ▸ htaken)
        exact ⟨Pool.mayReclaim_head haged hidle hroom hactive hoverdue, hrest ▸ hactive⟩
  · intro v hvisit hticket
    have hpool := s.pool_proceed i
    rw [hvisit] at hpool
    cases takes_of_visit? hvisit with
    | none _ hnone | first _ _ _ _ _ hnone => simp [hnone] at hticket
    | waits hactive hhead =>
      refine ⟨?_, fun slot => Pool.not_isOverdue_of_head haged hhead⟩
      have hsame : (s.proceed i).pool.active = s.pool.active :=
        (congrArg Pool.active hpool).trans hactive
      simp [reclaimed, hsame]

def twofold : Scene Willing :=
  start (.ofUrl "") { PoolConfig.standard with maxActive := 2, maxCheckoutTime := .zero } ⟨0⟩

/-- Two connections are handed out. The first one comes back and is handed out again, and then a
third acquisition begins. -/
def rotating : List (Event Willing) :=
  acquiring ++ acquiring ++ .giveBack 0 :: acquiring ++ [.acquire none none]

/-- The second connection is taken from its holder, who has had it for longer. -/
theorem reclaims_longest_held_rotated :
    twofold.turnsBackIn rotating = false ∧ ∃ slot ∈ (twofold.run rotating).pool.active,
      slot.physical.number = 2 ∧ ∃ v ∈ (twofold.run rotating).visit? 0,
        (twofold.run rotating).pool.MayReclaim v.now slot := by
  have hclock : twofold.turnsBackIn rotating = false := by decide
  have hstart : start (.ofUrl "") twofold.pool.config ⟨0⟩ = twofold := rfl
  have hreclaims := run_reclaims_longest_held (.ofUrl "") twofold.pool.config ⟨0⟩ rotating
  rw [hstart] at hreclaims
  obtain ⟨slot, hreclaimed, hsecond⟩ :
      ∃ slot ∈ (twofold.run rotating).reclaimed (.proceed 0), slot.physical.number = 2 := by
    decide
  obtain ⟨v, hvisit, hmay, -⟩ := ((hreclaims hclock).2 0).1 slot hreclaimed
  exact ⟨hclock, slot, hmay.held, hsecond, v, hvisit, hmay⟩

end Scene
end SqlMapper
