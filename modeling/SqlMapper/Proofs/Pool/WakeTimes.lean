import SqlMapper.Proofs.Pool.Credentials
import SqlMapper.Proofs.Pool.WakeUps

/-!
When somebody who waits for a connection wakes without being woken: before any connection in use is
overdue, unless nothing was in use when it was parked, so that it had no connection to look at.
-/

namespace SqlMapper

variable {ω : Type}

def PoolConfig.overdueAt? (config : PoolConfig) (checkoutAt : Instant) : Option Instant := do
  (← checkoutAt.after? config.maxCheckoutTime).after? (.ofMillis 1)

/-- A later point in time is not later after a span that the clock can show. -/
theorem Instant.after?_mono {start start' t' : Instant} {d : Duration}
    (hle : start.nanos ≤ start'.nanos) (h : start'.after? d = some t') :
    ∃ t, start.after? d = some t ∧ t.nanos ≤ t'.nanos := by
  unfold after? at h ⊢
  split at h
  · rename_i hshown
    obtain rfl := Option.some.inj h
    refine ⟨⟨start.nanos + d.nanos⟩, if_pos (by omega), ?_⟩
    dsimp only
    omega
  · cases h

/-- What is handed out first is overdue first. -/
theorem PoolConfig.overdueAt?_mono {config : PoolConfig} {c c' t' : Instant}
    (hle : c.nanos ≤ c'.nanos) (h : config.overdueAt? c' = some t') :
    ∃ t, config.overdueAt? c = some t ∧ t.nanos ≤ t'.nanos := by
  obtain ⟨end', hend', hlate'⟩ := Option.bind_eq_some_iff.mp h
  obtain ⟨end₁, hend, hends⟩ := Instant.after?_mono hle hend'
  obtain ⟨t, hlate, ht⟩ := Instant.after?_mono hends hlate'
  exact ⟨t, Option.bind_eq_some_iff.mpr ⟨end₁, hend, hlate⟩, ht⟩

namespace Acquisition

def wakesBy (t : Instant) (a : Acquisition) : Bool :=
  a.wakeAt?.any fun w => decide (w.nanos ≤ t.nanos)

theorem wakesBy_of_wakeAt? {a : Acquisition} {w t : Instant} (h : a.wakeAt? = some w)
    (hle : w.nanos ≤ t.nanos) : a.wakesBy t = true := by
  rw [wakesBy, h, Option.any_some]
  exact decide_eq_true hle

/-- An acquisition wakes before any of some connections, or any that is handed out from now on, has
been in use for too long. -/
def Watches (config : PoolConfig) (slots : List Slot) (now : Nat) (a : Acquisition) : Prop :=
  ∀ c : Instant, (∃ slot ∈ slots, slot.checkoutAt = c) ∨ now ≤ c.nanos →
    ∀ t, config.overdueAt? c = some t → a.wakesBy t = true

theorem Watches.mono {config : PoolConfig} {slots slots' : List Slot} {now now' : Nat}
    {a : Acquisition} (h : a.Watches config slots now) (hnow : now ≤ now')
    (hslots : ∀ slot ∈ slots', slot ∈ slots ∨ now ≤ slot.checkoutAt.nanos) :
    a.Watches config slots' now' := by
  rintro c (⟨slot, hslot, rfl⟩ | hc)
  · exact h slot.checkoutAt ((hslots slot hslot).imp_left fun hold => ⟨slot, hold, rfl⟩)
  · exact h c (.inr (Nat.le_trans hnow hc))

end Acquisition

structure Slot.AreAged (now : Nat) (slots : List Slot) : Prop where
  sorted : slots.Pairwise fun x y => x.checkoutAt.nanos ≤ y.checkoutAt.nanos
  past : ∀ slot ∈ slots, slot.checkoutAt.nanos ≤ now

namespace Slot.AreAged

variable {now now' : Nat} {slots slots' : List Slot}

theorem sublist (h : AreAged now slots) (hslots : slots'.Sublist slots) (hnow : now ≤ now') :
    AreAged now' slots' where
  sorted := h.sorted.sublist hslots
  past := fun slot hslot => Nat.le_trans (h.past slot (hslots.subset hslot)) hnow

theorem append_now {slot : Slot} (h : AreAged now slots) (hslot : slot.checkoutAt.nanos = now)
    (hnow : now ≤ now') : AreAged now' (slots ++ [slot]) where
  sorted := by
    refine List.pairwise_append.mpr ⟨h.sorted, List.pairwise_singleton _ _, ?_⟩
    intro x hx y hy
    obtain rfl := List.mem_singleton.mp hy
    exact hslot ▸ h.past x hx
  past := by
    intro x hx
    rcases List.mem_append.mp hx with hx | hx
    · exact Nat.le_trans (h.past x hx) hnow
    · obtain rfl := List.mem_singleton.mp hx
      exact hslot ▸ hnow

/-- The first one was handed out before all the others, and before whatever comes. -/
theorem head_le {oldest : Slot} {rest : List Slot} (h : AreAged now (oldest :: rest))
    (hnow : now ≤ now') {c : Instant}
    (hc : (∃ slot ∈ oldest :: rest, slot.checkoutAt = c) ∨ now' ≤ c.nanos) :
    oldest.checkoutAt.nanos ≤ c.nanos := by
  rcases hc with ⟨slot, hslot, rfl⟩ | hc
  · rcases List.mem_cons.mp hslot with rfl | hslot
    · exact Nat.le_refl _
    · exact List.rel_of_pairwise_cons h.sorted hslot
  · exact Nat.le_trans (h.past oldest List.mem_cons_self) (Nat.le_trans hnow hc)

end Slot.AreAged

namespace Pool

theorem overdueAt_eq (p : Pool) :
    p.overdueAt = p.active.head?.bind fun oldest => p.config.overdueAt? oldest.checkoutAt := rfl

variable {p : Pool}

theorem wakeTime_of_deadline (p : Pool) (d : Instant) :
    ∃ w, p.wakeTime (some d) = some w ∧ w.nanos ≤ d.nanos := by
  unfold wakeTime
  cases p.overdueAt with
  | none => exact ⟨d, rfl, Nat.le_refl _⟩
  | some t => exact ⟨t.earlier d, rfl, Nat.min_le_right t.nanos d.nanos⟩

theorem wakeTime_of_overdueAt (deadline : Option Instant) {t : Instant}
    (h : p.overdueAt = some t) : ∃ w, p.wakeTime deadline = some w ∧ w.nanos ≤ t.nanos := by
  unfold wakeTime
  rw [h]
  cases deadline with
  | none => exact ⟨t, rfl, Nat.le_refl _⟩
  | some d => exact ⟨t.earlier d, rfl, Nat.min_le_left t.nanos d.nanos⟩

/-- Who is parked wakes at its deadline at the latest. -/
theorem wakesBy_park_deadline (now : Instant) (a : Acquisition) {d : Instant}
    (h : (p.park now a).1.deadline = some (some d)) : (p.park now a).1.wakesBy d = true := by
  have hdeadline : a.deadline.getD (now.after? p.config.timeToWait) = some d := Option.some.inj h
  obtain ⟨w, hw, hle⟩ := p.wakeTime_of_deadline d
  have hwake : (p.park now a).1.wakeAt? = some w := by
    rw [← hw, ← hdeadline]
    rfl
  exact Acquisition.wakesBy_of_wakeAt? hwake hle

/-- Who is parked while connections are in use wakes before one of them has been in use for too
long. -/
theorem watches_park (now : Instant) (a : Acquisition) {time time' : Nat}
    (haged : Slot.AreAged time p.active) (htime : time ≤ time') (hsome : p.active ≠ []) :
    (p.park now a).1.Watches p.config p.active time' := by
  obtain ⟨oldest, rest, hactive⟩ := List.exists_cons_of_ne_nil hsome
  intro c hc t ht
  rw [hactive] at haged hc
  obtain ⟨t₀, ht₀, hle⟩ := PoolConfig.overdueAt?_mono (haged.head_le htime hc) ht
  have hoverdue : p.overdueAt = some t₀ := by
    rw [overdueAt_eq, hactive]
    exact ht₀
  obtain ⟨w, hw, hwle⟩ :=
    wakeTime_of_overdueAt (a.deadline.getD (now.after? p.config.timeToWait)) hoverdue
  have hwake : (p.park now a).1.wakeAt? = some w := hw
  exact Acquisition.wakesBy_of_wakeAt? hwake (Nat.le_trans hwle hle)

end Pool

namespace Acquisition

variable {now : Instant} {a a' b : Acquisition} {p p' q : Pool} {w w' : ω}

/-- A section after which the acquisition does not wait. Of those that wait some may be woken; the
connection that is handed out, if any, comes after those that are in use. -/
structure Stirs (now : Instant) (a : Acquisition) (p : Pool) (a' : Acquisition) (p' : Pool) :
    Prop where
  ticket : a'.ticket? = none
  config : p'.config = p.config
  tickets : p'.tickets = p.tickets
  parked : p'.parked ⊆ p.parked
  active : p'.active.Sublist p.active ∨
    a.ticket? = none ∧ ∃ slot : Slot, slot.checkoutAt = now ∧ p'.active = p.active ++ [slot]

theorem Turns.leaves (h : a.Turns now p b q) :
    q.config = p.config ∧ q.tickets = p.tickets ∧ q.parked ⊆ p.parked ∧ q.active = p.active := by
  cases h with
  | enters => exact ⟨rfl, rfl, List.Subset.refl _, rfl⟩
  | wakes => exact ⟨rfl, rfl, List.filter_subset_self _, rfl⟩
  | outdated | bad => exact ⟨rfl, rfl, List.drop_subset 1 p.parked, rfl⟩

theorem Turns.stirs (h : a.Turns now p b q) (hticket : a'.ticket? = none)
    (hconfig : p'.config = q.config) (htickets : p'.tickets = q.tickets)
    (hparked : p'.parked = q.parked) (hactive : p'.active.Sublist q.active) :
    a.Stirs now p a' p' := by
  obtain ⟨hconfig', htickets', hparked', hactive'⟩ := h.leaves
  exact ⟨hticket, hconfig.trans hconfig', htickets.trans htickets', hparked ▸ hparked',
    .inl (hactive' ▸ hactive)⟩

/-- A section puts its acquisition to sleep, or it stirs. -/
theorem Section.parks_or_stirs [Server ω] (h : a.Section now p w a' p' w') :
    (∃ b q, a.Turns now p b q ∧ a' = (q.park now b).1 ∧ p' = (q.park now b).2) ∨
      a.Stirs now p a' p' := by
  have hsame : p.active.Sublist p.active ∨ a.ticket? = none ∧ ∃ slot : Slot,
      slot.checkoutAt = now ∧ p.active = p.active ++ [slot] := .inl (List.Sublist.refl _)
  cases h with
  | @looks b a' q p' w' hturn hlooks =>
    cases hlooks with
    | picks | opens | refused | givesUp =>
      exact .inr (hturn.stirs rfl rfl rfl rfl (List.Sublist.refl _))
    | @reclaims oldest rest hidle hroom hactive hoverdue =>
      refine .inr (hturn.stirs rfl rfl rfl rfl ?_)
      rw [hactive]
      exact List.sublist_cons_self oldest rest
    | waits => exact .inl ⟨b, q, hturn, rfl, rfl⟩
  | interrupted => exact .inr ⟨rfl, rfl, rfl, List.filter_subset_self _, hsame⟩
  | passes | failsTest | finishes | rejects | closes =>
    exact .inr ⟨rfl, rfl, rfl, List.Subset.refl _, hsame⟩
  | handsOut hphase =>
    have hticket : a.ticket? = none := by rw [ticket?, hphase]
    exact .inr ⟨rfl, rfl, rfl, List.Subset.refl _, .inr ⟨hticket, _, rfl, rfl⟩⟩
  | despairs => exact .inr ⟨rfl, rfl, rfl, List.drop_subset 1 p.parked, hsame⟩

end Acquisition

namespace Scene

variable [Clock ω]

def time (s : Scene ω) : Nat := (Clock.read s.ledger).1.nanos

variable [Server ω]

def turnsBackIn (s : Scene ω) : List (Event ω) → Bool
  | [] => false
  | e :: events => decide ((s.step e).time < s.time) || (s.step e).turnsBackIn events

def Event.reconfigures : Event ω → Bool
  | .reconfigure _ _ => true
  | _ => false

def blindTickets (s : Scene ω) (e : Event ω) : List Nat :=
  let s' := s.step e
  if s.pool.active.isEmpty && decide (s.pool.tickets < s'.pool.tickets) then [s'.pool.tickets]
  else []

def blindTicketsIn (s : Scene ω) : List (Event ω) → List Nat
  | [] => []
  | e :: events => s.blindTickets e ++ (s.step e).blindTicketsIn events

/-- Everybody who waits wakes in time by itself, apart from those who could not know for which
connection: they were put to sleep while nothing was in use, or the limits were changed and an
operation is about to wake everybody. -/
structure IsTimely (changed : Bool) (blind : List Nat) (s : Scene ω) : Prop where
  aged : Slot.AreAged s.time s.pool.active
  issued : ∀ a ∈ s.acquisitions, ∀ ticket, a.ticket? = some ticket → ticket ≤ s.pool.tickets
  deadline : ∀ a ∈ s.acquisitions, a.ticket?.isSome = true →
    ∀ d, a.deadline = some (some d) → a.wakesBy d = true
  watches : (changed = true ∧ s.wakesAll = true) ∨ ∀ a ∈ s.acquisitions, ∀ ticket ∈ s.pool.parked,
    a.ticket? = some ticket → ticket ∉ blind → a.Watches s.pool.config s.pool.active s.time

omit [Clock ω] [Server ω] in
theorem wakesAll_put (s : Scene ω) (i : Nat) (a : Acquisition) :
    (s.put i a).wakesAll = s.wakesAll := by
  unfold put
  split <;> rfl

namespace IsTimely

variable {changed changed' : Bool} {blind blind' : List Nat} {s s' : Scene ω}

omit [Server ω]

theorem mono (h : s.IsTimely changed blind) (hchanged : changed = true → changed' = true)
    (hblind : blind ⊆ blind') : s.IsTimely changed' blind' where
  aged := h.aged
  issued := h.issued
  deadline := h.deadline
  watches := h.watches.imp (And.imp_left hchanged) fun hwatches a ha ticket hparked hticket hseen =>
    hwatches a ha ticket hparked hticket fun hmem => hseen (hblind hmem)

/-- Nobody is put to sleep, and what is handed out is handed out now. -/
theorem stir (h : s.IsTimely changed blind) (htime : s.time ≤ s'.time)
    (hconfig : s'.pool.config = s.pool.config) (htickets : s'.pool.tickets = s.pool.tickets)
    (hparked : s'.pool.parked ⊆ s.pool.parked)
    (hactive : s'.pool.active.Sublist s.pool.active ∨
      ∃ slot : Slot, slot.checkoutAt.nanos = s.time ∧ s'.pool.active = s.pool.active ++ [slot])
    (hacquisitions : ∀ a ∈ s'.acquisitions, a ∈ s.acquisitions ∨ a.ticket? = none)
    (hwakes : s.wakesAll = true → s'.wakesAll = true ∨ s'.pool.parked = []) :
    s'.IsTimely changed blind where
  aged := by
    rcases hactive with hactive | ⟨slot, hslot, hactive⟩
    · exact h.aged.sublist hactive htime
    · exact hactive ▸ h.aged.append_now hslot htime
  issued := by
    intro a ha ticket hticket
    rcases hacquisitions a ha with hold | hnone
    · exact htickets ▸ h.issued a hold ticket hticket
    · cases hnone.symm.trans hticket
  deadline := by
    intro a ha hticket
    rcases hacquisitions a ha with hold | hnone
    · exact h.deadline a hold hticket
    · simp [hnone] at hticket
  watches := by
    by_cases hnobody : s'.pool.parked = []
    · refine .inr fun a ha ticket hmem => ?_
      rw [hnobody] at hmem
      cases hmem
    refine h.watches.imp (fun ⟨hc, hall⟩ => ⟨hc, (hwakes hall).resolve_right hnobody⟩) ?_
    intro hwatches a ha ticket hmem hticket hseen
    rcases hacquisitions a ha with hold | hnone
    · have hbefore := hwatches a hold ticket (hparked hmem) hticket hseen
      rw [hconfig]
      refine hbefore.mono htime fun slot hslot => ?_
      rcases hactive with hactive | ⟨new, hnew, hactive⟩
      · exact .inl (hactive.subset hslot)
      · rw [hactive] at hslot
        refine (List.mem_append.mp hslot).imp_right fun hlast => ?_
        rw [List.mem_singleton.mp hlast]
        exact Nat.le_of_eq hnew.symm
    · cases hnone.symm.trans hticket

/-- Whoever is put to sleep gets a new ticket and watches what is in use, if anything is. -/
theorem park {now : Instant} {b : Acquisition} {q : Pool} (h : s.IsTimely changed blind)
    (htime : s.time ≤ s'.time) (hconfig : q.config = s.pool.config)
    (htickets : q.tickets = s.pool.tickets) (hparked : q.parked ⊆ s.pool.parked)
    (hactive : q.active = s.pool.active) (hpool : s'.pool = (q.park now b).2)
    (hacquisitions : ∀ a ∈ s'.acquisitions, a = (q.park now b).1 ∨ a ∈ s.acquisitions)
    (hwakes : s'.wakesAll = s.wakesAll)
    (hnothing : s.pool.active = [] → s'.pool.tickets ∈ blind) : s'.IsTimely changed blind := by
  have hnew : s'.pool.tickets = s.pool.tickets + 1 := by
    rw [hpool, ← htickets]
    rfl
  have hticket : (q.park now b).1.ticket? = some s'.pool.tickets := by
    rw [hpool]
    rfl
  have hconfig' : s'.pool.config = s.pool.config := by
    rw [hpool, ← hconfig]
    rfl
  have hactive' : s'.pool.active = s.pool.active := by
    rw [hpool, ← hactive]
    rfl
  refine ⟨?_, ?_, ?_, ?_⟩
  · rw [hactive']
    exact h.aged.sublist (List.Sublist.refl _) htime
  · intro a ha ticket hown
    rcases hacquisitions a ha with rfl | hold
    · exact Nat.le_of_eq (Option.some.inj (hown.symm.trans hticket))
    · exact hnew ▸ Nat.le_succ_of_le (h.issued a hold ticket hown)
  · intro a ha hwaits d hd
    rcases hacquisitions a ha with rfl | hold
    · exact q.wakesBy_park_deadline now b hd
    · exact h.deadline a hold hwaits d hd
  · rw [hwakes]
    refine h.watches.imp_right fun hwatches a ha ticket hmem hown hseen => ?_
    rw [hconfig', hactive']
    rcases hacquisitions a ha with rfl | hold
    · have hsome : q.active ≠ [] := fun hnil => by
        refine hseen ?_
        rw [Option.some.inj (hown.symm.trans hticket)]
        exact hnothing (hactive ▸ hnil)
      have haged : Slot.AreAged s.time q.active := hactive ▸ h.aged
      exact hconfig ▸ hactive ▸ Pool.watches_park now b haged htime hsome
    -- The new ticket is not that of anybody who waited before.
    · have hbefore : ticket ∈ s.pool.parked := by
        have hmem' : ticket ∈ q.parked ++ [q.tickets + 1] := by
          rw [hpool] at hmem
          exact hmem
        rcases List.mem_append.mp hmem' with hmem' | hlast
        · exact hparked hmem'
        · have hle := h.issued a hold ticket hown
          have heq := List.mem_singleton.mp hlast
          omega
      have hwatched := hwatches a hold ticket hbefore hown hseen
      exact hwatched.mono htime fun slot hslot => .inl hslot

/-- Nothing is in use any more, and everybody is going to be woken. -/
theorem tearDown {p : Pool} (h : s.IsTimely changed blind) (htime : s.time ≤ (s.tearDown p).time)
    (hparked : p.parked = s.pool.parked) (htickets : p.tickets = s.pool.tickets)
    (hconfig : changed = true ∨ p.config = s.pool.config) :
    (s.tearDown p).IsTimely changed blind := by
  have hpool : (s.tearDown p).pool.active = [] ∧ (s.tearDown p).pool.parked = s.pool.parked ∧
      (s.tearDown p).pool.tickets = s.pool.tickets ∧
      (s.tearDown p).pool.config = p.config := by
    unfold Scene.tearDown
    rw [Pool.tearDown_eq]
    exact ⟨rfl, hparked, htickets, rfl⟩
  obtain ⟨hactive, hparked', htickets', hconfig'⟩ := hpool
  have hwakes : (s.tearDown p).wakesAll = true := s.wakesAll_tearDown p
  refine ⟨?_, htickets' ▸ h.issued, h.deadline, ?_⟩
  · rw [hactive]
    exact h.aged.sublist (List.nil_sublist _) htime
  rcases hconfig with hnow | hsame
  · exact .inl ⟨hnow, hwakes⟩
  refine h.watches.imp (fun hstale => ⟨hstale.1, hwakes⟩) ?_
  intro hwatches a ha ticket hmem hticket hseen
  rw [hconfig', hsame, hactive]
  refine (hwatches a ha ticket (hparked' ▸ hmem) hticket hseen).mono htime ?_
  exact fun slot hslot => absurd hslot List.not_mem_nil

variable [Server ω]

/-- A section of an acquisition. -/
theorem proceed {i : Nat} {a a' : Acquisition} {p' : Pool} {l l' : Ledger ω}
    (h : s.IsTimely changed blind) (hsleep : a.sleep? s.pool s.ledger = some l)
    (hsection : a.Section (Clock.read l).1 s.pool (Clock.read l).2 a' p' l')
    (htime : s.time ≤ ({ s with pool := p', ledger := l' }.put i a').time)
    (hnothing : s.pool.active = [] → p'.tickets = s.pool.tickets + 1 → p'.tickets ∈ blind) :
    ({ s with pool := p', ledger := l' }.put i a').IsTimely changed blind := by
  have hpool := pool_put { s with pool := p', ledger := l' } i a'
  have hwakes := wakesAll_put { s with pool := p', ledger := l' } i a'
  have hmem := fun b => mem_acquisitions_put (s := { s with pool := p', ledger := l' })
    (i := i) (a := a') (b := b)
  rcases hsection.parks_or_stirs with ⟨b, q, hturn, rfl, rfl⟩ | hstirs
  · obtain ⟨hconfig, htickets, hparked, hactive⟩ := hturn.leaves
    have hnew : (q.park (Clock.read l).1 b).2.tickets = s.pool.tickets + 1 := by
      rw [← htickets]
      rfl
    refine h.park htime hconfig htickets hparked hactive hpool (fun c hc => hmem c hc) hwakes
      fun hnil => ?_
    rw [hpool]
    exact hnothing hnil hnew
  · refine h.stir htime (hpool ▸ hstirs.config) (hpool ▸ hstirs.tickets)
      (hpool ▸ hstirs.parked) ?_ (fun c hc => ?_) fun hall => .inl (hwakes.trans hall)
    · rw [hpool]
      refine hstirs.active.imp_right ?_
      rintro ⟨hticket, slot, hslot, hactive⟩
      -- Whoever hands something out was not asleep, so that no time has passed.
      have hawake : a.isAsleep s.pool = false := by
        by_contra hasleep
        obtain ⟨t, -, ht⟩ := Acquisition.isAsleep_iff.mp (by simpa using hasleep)
        cases hticket.symm.trans ht
      obtain rfl := eq_of_sleep? hsleep hawake
      exact ⟨slot, congrArg Instant.nanos hslot, hactive⟩
    · rcases hmem c hc with rfl | hold
      · exact .inr hstirs.ticket
      · exact .inl hold

/-- Every event leaves whoever waits and is not blind with a time at which nothing in use is overdue
yet. -/
theorem step (h : s.IsTimely changed blind) (e : Event ω) (htime : s.time ≤ (s.step e).time) :
    (s.step e).IsTimely (changed || e.reconfigures) (blind ++ s.blindTickets e) := by
  have hwider : s.IsTimely (changed || e.reconfigures) (blind ++ s.blindTickets e) :=
    h.mono (fun hbefore => by rw [hbefore, Bool.true_or]) (List.subset_append_left _ _)
  have hblind (hnil : s.pool.active = []) (hnew : (s.step e).pool.tickets = s.pool.tickets + 1) :
      (s.step e).pool.tickets ∈ blind ++ s.blindTickets e := by
    refine List.mem_append_right blind ?_
    simp [blindTickets, hnil, hnew]
  have hmoves := s.moves_step e
  generalize s.step e = s' at hmoves hblind htime ⊢
  cases hmoves with
  | @begins username password hthere =>
    refine hwider.stir htime rfl rfl (List.Subset.refl _) (.inl (List.Sublist.refl _)) ?_ .inl
    intro a ha
    refine (List.mem_append.mp ha).imp_right fun hnew => ?_
    rw [List.mem_singleton.mp hnew]
    rfl
  | proceeds hget hover hsleep hstep hsection =>
    rw [pool_put] at hblind
    exact hwider.proceed hsleep hsection htime hblind
  | returns hget hfree hfirst hthere hgiveBack hreturn =>
    cases hreturn with
    | late =>
      exact hwider.stir htime rfl rfl (List.Subset.refl _) (.inl (List.Sublist.refl _))
        (fun a ha => .inl ha) .inl
    | fails hfind hactive | keeps hfind hactive | closes hfind hactive =>
      refine hwider.stir htime rfl rfl (List.drop_subset 1 _) (.inl ?_) (fun a ha => .inl ha) .inl
      rw [hactive]
      exact (List.sublist_cons_self _ _).append_left _
  | closesAll dropped htears hconfig => exact hwider.tearDown htime rfl rfl (.inr rfl)
  | reconfigures htears => exact hwider.tearDown htime rfl rfl (.inl (Bool.or_true _))
  | interrupts =>
    refine hwider.stir htime rfl rfl (List.Subset.refl _) (.inl (List.Sublist.refl _))
      (fun a ha => .inl ha) fun _ => .inl ?_
    simp [wakesAll, Chore.isWakeUp]
  | wakesAll hget =>
    exact hwider.stir htime rfl rfl (List.nil_subset _) (.inl (List.Sublist.refl _))
      (fun a ha => .inl ha) fun _ => .inr rfl
  | closes hget =>
    refine hwider.stir htime rfl rfl (List.Subset.refl _) (.inl (List.Sublist.refl _))
      (fun a ha => .inl ha) fun hall => .inl ?_
    unfold wakesAll
    exact (wakesAll_set hget rfl).trans hall
  | stays | asks | answers | outlives | returnsAgain | keepsHandle | disturbs | nothing =>
    exact hwider.stir htime rfl rfl (List.Subset.refl _) (.inl (List.Sublist.refl _))
      (fun a ha => .inl ha) .inl

/-- While the clock is not turned back, this holds after every run. -/
theorem run (h : s.IsTimely changed blind) (events : List (Event ω))
    (hclock : s.turnsBackIn events = false) :
    (s.run events).IsTimely (changed || events.any Event.reconfigures)
      (blind ++ s.blindTicketsIn events) := by
  unfold Scene.run
  -- On the events, for any scene that is timely so far; the exceptions add up.
  induction events generalizing s changed blind with
  | nil => exact h.mono (fun hbefore => by rw [hbefore, Bool.true_or]) (List.subset_append_left _ _)
  | cons e events ih =>
    obtain ⟨hnow, hlater⟩ : ¬(s.step e).time < s.time ∧ (s.step e).turnsBackIn events = false := by
      simpa only [turnsBackIn, Bool.or_eq_false_iff, decide_eq_false_iff_not] using hclock
    rw [List.any_cons, ← Bool.or_assoc, blindTicketsIn, ← List.append_assoc]
    exact ih (h.step e (Nat.le_of_not_lt hnow)) hlater

end IsTimely

omit [Server ω] in
theorem isTimely_start (settings : ConnectionSettings) (config : PoolConfig) (server : ω) :
    (start settings config server).IsTimely false [] where
  aged := ⟨List.Pairwise.nil, fun _ hslot => absurd hslot List.not_mem_nil⟩
  issued := fun _ ha => absurd ha List.not_mem_nil
  deadline := fun _ ha => absurd ha List.not_mem_nil
  watches := .inr fun _ ha => absurd ha List.not_mem_nil

/-- Everybody who waits wakes in time. As long as the clock is not turned back, for every
interleaving: an acquisition that is parked and was not woken wakes by itself at its deadline at the
latest; and unless it was parked while nothing was in use, it wakes before any connection that is in
use now will have been in use for too long. Only while an operation that has changed the limits has
still to wake everybody, this may not be so. -/
theorem run_wakes_in_time (settings : ConnectionSettings) (config : PoolConfig)
    (server : ω) (events : List (Event ω))
    (hclock : (start settings config server).turnsBackIn events = false) :
    let s := (start settings config server).run events
    ∀ a ∈ s.acquisitions, a.isAsleep s.pool = true →
      (∀ d, a.deadline = some (some d) → a.wakesBy d = true) ∧
      ((events.any Event.reconfigures = true ∧ s.wakesAll = true) ∨
        (∃ ticket ∈ (start settings config server).blindTicketsIn events,
          a.ticket? = some ticket) ∨
        ∀ slot ∈ s.pool.active, ∀ t, s.pool.config.overdueAt? slot.checkoutAt = some t →
          a.wakesBy t = true) := by
  intro s a ha hasleep
  have htimely : s.IsTimely (events.any Event.reconfigures)
      ((start settings config server).blindTicketsIn events) :=
    (isTimely_start settings config server).run events hclock
  obtain ⟨ticket, hparked, hticket⟩ := Acquisition.isAsleep_iff.mp hasleep
  refine ⟨htimely.deadline a ha (hticket ▸ rfl), ?_⟩
  by_cases hblind : ticket ∈ (start settings config server).blindTicketsIn events
  · exact .inr (.inl ⟨ticket, hblind, hticket⟩)
  refine htimely.watches.imp_right fun hwatches => .inr fun slot hslot t ht => ?_
  exact hwatches a ha ticket hparked hticket hblind slot.checkoutAt (.inl ⟨slot, hslot, rfl⟩) t ht

def brief : Scene Willing :=
  start (.ofUrl "")
    { PoolConfig.standard with
      maxActive := 1, maxCheckoutTime := .ofMillis 30, timeToWait := .ofMillis 5000 }
    ⟨0⟩

def waiting : List (Event Willing) := acquiring ++ [.acquire none none, .proceed 0]

/-- It wakes in time to take the connection from its holder. -/
theorem wakes_in_time_waiting :
    let s := brief.run waiting
    brief.turnsBackIn waiting = false ∧
      ∃ a ∈ s.acquisitions, a.isAsleep s.pool = true ∧ ∃ slot ∈ s.pool.active,
        ∃ t ∈ s.pool.config.overdueAt? slot.checkoutAt, a.wakesBy t = true := by
  have hbrief : start (.ofUrl "") brief.pool.config ⟨0⟩ = brief := rfl
  have hclock : brief.turnsBackIn waiting = false := by decide
  have htimely := run_wakes_in_time (.ofUrl "") brief.pool.config ⟨0⟩ waiting
  rw [hbrief] at htimely
  obtain ⟨a, ha, hasleep, hseen, slot, hslot, hdue⟩ : ∃ a ∈ (brief.run waiting).acquisitions,
      a.isAsleep (brief.run waiting).pool = true ∧
        (∀ ticket ∈ brief.blindTicketsIn waiting, a.ticket? ≠ some ticket) ∧
        ∃ slot ∈ (brief.run waiting).pool.active,
          ((brief.run waiting).pool.config.overdueAt? slot.checkoutAt).isSome = true := by
    decide
  obtain ⟨t, ht⟩ := Option.isSome_iff_exists.mp hdue
  refine ⟨hclock, a, ha, hasleep, slot, hslot, t, ht, ?_⟩
  rcases (htimely hclock a ha hasleep).2 with ⟨hchanged, -⟩ | ⟨ticket, hmem, hticket⟩ | hwakes
  · exact absurd hchanged (by decide)
  · exact absurd hticket (hseen ticket hmem)
  · exact hwakes slot hslot t ht

/-- An acquisition waits while the only place belongs to a candidate that is being checked, and then
this connection is handed out. -/
def overlooking : List (Event Willing) :=
  [.acquire none none, .proceed 0, .acquire none none, .proceed 1] ++
    List.replicate 5 (.proceed 0)

/-- Nobody tells the one that waits, and it sleeps on when the connection has been in use for too
long. -/
theorem wakes_late_overlooking :
    let s := brief.run overlooking
    brief.turnsBackIn overlooking = false ∧ s.wakesAll = false ∧
      ∃ a ∈ s.acquisitions, a.isAsleep s.pool = true ∧ ∃ slot ∈ s.pool.active,
        ∃ t ∈ s.pool.config.overdueAt? slot.checkoutAt, a.wakesBy t = false := by
  decide

end Scene
end SqlMapper
