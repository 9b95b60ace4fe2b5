import Mathlib.Data.Multiset.Count
import SqlMapper.Connection.Memory
import SqlMapper.Connection.Recorder
import SqlMapper.Proofs.Pool.Capacity
import SqlMapper.Proofs.Pool.Moves

/-!
Who waits for a connection is not forgotten: there are always as many acquisitions on their way to
the pool as there are free places, or nobody waits. A wake-up is lost when the acquisition that got
it leaves the place free and wakes nobody in turn.
-/

namespace SqlMapper

variable {ω : Type}

def Pool.room (p : Pool) : Nat := p.config.maxActive.toNat - (p.active.length + p.pending)

theorem Pool.hasRoom_iff (p : Pool) : p.hasRoom = true ↔ 0 < p.room := by
  unfold hasRoom room
  rw [decide_eq_true_iff]
  omega

namespace Acquisition

def ticket? (a : Acquisition) : Option Nat :=
  match a.phase with
  | .parked ticket _ => some ticket
  | _ => none

def isWoken (a : Acquisition) (p : Pool) : Bool := a.ticket?.any (!p.parked.contains ·)

def isDiscarding (a : Acquisition) : Bool :=
  match a.phase with
  | .discarding _ _ | .discarded _ => true
  | _ => false

def isAlert (a : Acquisition) (p : Pool) : Bool :=
  a.isDiscarding || (a.isWoken p && a.epoch == p.epoch)

theorem isAsleep_iff {a : Acquisition} {p : Pool} :
    a.isAsleep p = true ↔ ∃ ticket ∈ p.parked, a.ticket? = some ticket := by
  unfold isAsleep ticket?
  cases a.phase <;> simp

theorem isWoken_iff {a : Acquisition} {p : Pool} :
    a.isWoken p = true ↔ ∃ ticket ∉ p.parked, a.ticket? = some ticket := by
  unfold isWoken
  cases a.ticket? <;> simp

end Acquisition

/-- Everybody who waits is attended to, unless everybody is going to be woken: there are as many
acquisitions on their way to the pool as there are free places, up to the wake-ups that are
still due. -/
structure Pool.Attends (p : Pool) (wakesAll : Bool) (k : Nat) (as : Multiset Acquisition) :
    Prop where
  nodup : p.parked.Nodup
  owned : ∀ ticket ∈ p.parked, ∃ a ∈ as, a.ticket? = some ticket
  past : ∀ a ∈ as, ∀ ticket ∈ a.ticket?, ticket ≤ p.tickets
  current : wakesAll = true ∨ ∀ a ∈ as, a.isAsleep p = true → a.epoch = p.epoch
  covered : wakesAll = true ∨ p.parked = [] ∨ p.room ≤ as.countP (·.isAlert p = true) + k

namespace Acquisition

theorem isAlert_mono {p q : Pool} (hparked : q.parked ⊆ p.parked) (hepoch : q.epoch = p.epoch)
    {a : Acquisition} (h : a.isAlert p = true) : a.isAlert q = true := by
  rcases Bool.or_eq_true_iff.mp h with hdiscards | hwoken
  · exact Bool.or_eq_true_iff.mpr (.inl hdiscards)
  · obtain ⟨hwoken, hsame⟩ := Bool.and_eq_true_iff.mp hwoken
    obtain ⟨t, ht, hticket⟩ := isWoken_iff.mp hwoken
    -- Its ticket is gone already, whoever else is woken.
    have hwoken' : a.isWoken q = true := isWoken_iff.mpr ⟨t, fun hmem => ht (hparked hmem), hticket⟩
    refine Bool.or_eq_true_iff.mpr (.inr (Bool.and_eq_true_iff.mpr ⟨hwoken', ?_⟩))
    rwa [hepoch]

theorem countP_isAlert_mono {p q : Pool} (hparked : q.parked ⊆ p.parked)
    (hepoch : q.epoch = p.epoch) (as : Multiset Acquisition) :
    as.countP (·.isAlert p = true) ≤ as.countP (·.isAlert q = true) := by
  rw [Multiset.countP_eq_card_filter, Multiset.countP_eq_card_filter]
  refine Multiset.card_le_card (Multiset.monotone_filter_right as ?_)
  exact fun a ha => isAlert_mono hparked hepoch ha

theorem isAlert_eq_false_of_isAsleep {a : Acquisition} {p : Pool} (h : a.isAsleep p = true) :
    a.isAlert p = false := by
  obtain ⟨t, ht, hticket⟩ := isAsleep_iff.mp h
  have hkeeps : a.isDiscarding = false := by
    unfold isDiscarding
    unfold ticket? at hticket
    split at hticket <;> simp_all
  have hwoken : a.isWoken p = false := by simp [isWoken, hticket, ht]
  simp [isAlert, hkeeps, hwoken]

end Acquisition

theorem Acquisition.Looks.epoch [Server ω] {now : Instant} {b a' : Acquisition} {q p' : Pool}
    {w w' : ω} (h : b.Looks now q w a' p' w') : a'.epoch = b.epoch := by
  cases h <;> rfl

namespace Pool.Attends

open Acquisition

variable {p q : Pool} {all : Bool} {k k' : Nat} {a : Acquisition} {as : Multiset Acquisition}

/-- Nobody is put to sleep, and those who are on their way are enough. -/
theorem wake (h : p.Attends all k as) (hparked : q.parked.Sublist p.parked)
    (htickets : q.tickets = p.tickets) (hepoch : q.epoch = p.epoch)
    (hcovered : all = false → q.parked ≠ [] →
      p.room ≤ as.countP (·.isAlert p = true) + k →
        q.room ≤ as.countP (·.isAlert q = true) + k') : q.Attends all k' as where
  nodup := h.nodup.sublist hparked
  owned := fun t ht => h.owned t (hparked.subset ht)
  past := htickets ▸ h.past
  current := by
    refine h.current.imp_right fun hcurrent a ha hasleep => ?_
    obtain ⟨t, ht, hticket⟩ := isAsleep_iff.mp hasleep
    rw [hepoch]
    exact hcurrent a ha (isAsleep_iff.mpr ⟨t, hparked.subset ht, hticket⟩)
  covered := by
    rcases hall : all with _ | _
    swap
    · exact .inl rfl
    by_cases hnobody : q.parked = []
    · exact .inr (.inl hnobody)
    have hsome : p.parked ≠ [] := fun hnil => hnobody (List.sublist_nil.mp (hnil ▸ hparked))
    have hbefore := (h.covered.resolve_left (by simp [hall])).resolve_left hsome
    exact .inr (.inr (hcovered hall hnobody hbefore))

/-- There is no room, or no more becomes free than what is due. -/
theorem move (h : p.Attends all k as) (hparked : q.parked = p.parked)
    (htickets : q.tickets = p.tickets) (hepoch : q.epoch = p.epoch)
    (hroom : q.room = 0 ∨ q.room + k ≤ p.room + k') : q.Attends all k' as := by
  refine h.wake (hparked ▸ List.Sublist.refl _) htickets hepoch fun _ _ hbefore => ?_
  have hmono := countP_isAlert_mono (p := p) (q := q) (hparked ▸ List.Subset.refl _) hepoch as
  omega

theorem wakeAll (h : p.Attends all k as) (hparked : q.parked = p.parked)
    (htickets : q.tickets = p.tickets) : q.Attends true 0 as :=
  ⟨hparked ▸ h.nodup, hparked ▸ h.owned, htickets ▸ h.past, .inl rfl, .inl rfl⟩

theorem of_nobody (hparked : p.parked = [])
    (hpast : ∀ a ∈ as, ∀ ticket ∈ a.ticket?, ticket ≤ p.tickets) : p.Attends all k as := by
  refine ⟨hparked ▸ List.nodup_nil, ?_, hpast, .inr ?_, .inr (.inl hparked)⟩
  · exact fun t ht => absurd (hparked ▸ ht) List.not_mem_nil
  · intro a ha hasleep
    obtain ⟨t, ht, -⟩ := isAsleep_iff.mp hasleep
    exact absurd (hparked ▸ ht) List.not_mem_nil

/-- Waking one acquisition is one wake-up less that is due. -/
theorem notifyOne (h : p.Attends all (k + 1) as) : p.notifyOne.Attends all k as := by
  refine h.wake (List.drop_sublist 1 p.parked) rfl rfl fun hall hsome hbefore => ?_
  obtain ⟨first, rest, hparked⟩ : ∃ first rest, p.parked = first :: rest := by
    refine List.exists_cons_of_ne_nil fun hnil => hsome ?_
    rw [Pool.notifyOne, hnil]
    rfl
  have hrest : p.notifyOne.parked = rest := by
    rw [Pool.notifyOne, hparked]
    rfl
  have hfirst : first ∈ p.parked := hparked ▸ List.mem_cons_self
  have hnodup := h.nodup
  rw [hparked, List.nodup_cons] at hnodup
  obtain ⟨b, hb, hticket⟩ := h.owned first hfirst
  have hasleep : b.isAsleep p = true := isAsleep_iff.mpr ⟨first, hfirst, hticket⟩
  have hepoch : b.epoch = p.epoch := (h.current.resolve_left (by simp [hall])) b hb hasleep
  -- Who is woken was not on the way before, and is now; the others who were still are.
  have hnew : b.isAlert p.notifyOne = true := by
    have hwoken : b.isWoken p.notifyOne = true :=
      isWoken_iff.mpr ⟨first, hrest ▸ hnodup.1, hticket⟩
    unfold isAlert
    rw [hwoken, hepoch, Bool.true_and]
    exact Bool.or_eq_true_iff.mpr (.inr (beq_self_eq_true p.epoch))
  have hold : b.isAlert p = false := isAlert_eq_false_of_isAsleep hasleep
  -- So there is one more, for the one free place that was due.
  obtain ⟨others, rfl⟩ := Multiset.exists_cons_of_mem hb
  rw [Multiset.countP_cons, if_neg (by simp [hold])] at hbefore
  rw [Multiset.countP_cons, if_pos hnew]
  have hothers := countP_isAlert_mono (p := p) (q := p.notifyOne) (List.drop_subset 1 p.parked)
    rfl others
  have hroom : p.notifyOne.room = p.room := rfl
  omega

/-- Whoever leaves takes the ticket along. If it was on its way, its wake-up is due again. -/
theorem leave (h : p.Attends all 0 (a ::ₘ as)) (hparked : q.parked.Sublist p.parked)
    (hticket : ∀ t ∈ q.parked, a.ticket? ≠ some t) (htickets : q.tickets = p.tickets)
    (hepoch : q.epoch = p.epoch) (hroom : q.room = p.room) :
    q.Attends all (if a.isAlert p = true then 1 else 0) as := by
  have hstays : q.Attends all 0 (a ::ₘ as) := by
    refine h.wake hparked htickets hepoch fun _ _ hbefore => ?_
    have hmono := countP_isAlert_mono hparked.subset hepoch (a ::ₘ as)
    omega
  have hmem : ∀ b ∈ as, b ∈ a ::ₘ as := fun b hb => Multiset.mem_cons_of_mem hb
  refine ⟨hstays.nodup, ?_, fun b hb => hstays.past b (hmem b hb), ?_, ?_⟩
  · intro t ht
    obtain ⟨b, hb, hown⟩ := hstays.owned t ht
    rcases Multiset.mem_cons.mp hb with rfl | hb
    · exact absurd hown (hticket t ht)
    · exact ⟨b, hb, hown⟩
  · exact hstays.current.imp_right fun hcurrent b hb => hcurrent b (hmem b hb)
  · refine h.covered.imp_right fun hcovered => ?_
    by_cases hnobody : q.parked = []
    · exact .inl hnobody
    have hsome : p.parked ≠ [] := fun hnil => hnobody (List.sublist_nil.mp (hnil ▸ hparked))
    have hbefore := hcovered.resolve_left hsome
    rw [Multiset.countP_cons] at hbefore
    have hmono := countP_isAlert_mono hparked.subset hepoch as
    refine .inr ?_
    omega

theorem join (h : p.Attends all k as) (hticket : a.ticket? = none)
    (hdue : k ≤ k' + if a.isDiscarding = true then 1 else 0) :
    p.Attends all k' (a ::ₘ as) := by
  refine ⟨h.nodup, ?_, ?_, ?_, ?_⟩
  · intro t ht
    obtain ⟨b, hb, hown⟩ := h.owned t ht
    exact ⟨b, Multiset.mem_cons_of_mem hb, hown⟩
  · intro b hb t ht
    rcases Multiset.mem_cons.mp hb with rfl | hb
    · exact absurd (hticket.symm.trans ht) (by simp)
    · exact h.past b hb t ht
  · refine h.current.imp_right fun hcurrent b hb hasleep => ?_
    rcases Multiset.mem_cons.mp hb with rfl | hb
    · obtain ⟨t, -, ht⟩ := isAsleep_iff.mp hasleep
      exact absurd (hticket.symm.trans ht) (by simp)
    · exact hcurrent b hb hasleep
  -- Who is not parked is on its way only if it discards something.
  · refine h.covered.imp_right (Or.imp_right fun hcovered => ?_)
    have halert : a.isAlert p = a.isDiscarding := by
      unfold isAlert isWoken
      rw [hticket]
      exact Bool.or_false _
    rw [Multiset.countP_cons, halert]
    omega

/-- Who finds no room is parked under a new ticket. -/
theorem park (h : p.Attends all k as) (hroom : p.room = 0)
    (hparked : q.parked = p.parked ++ [p.tickets + 1]) (htickets : q.tickets = p.tickets + 1)
    (hepoch : q.epoch = p.epoch) (hfull : q.room = p.room)
    (hticket : a.ticket? = some (p.tickets + 1)) (hcurrent : a.epoch = p.epoch) :
    q.Attends all 0 (a ::ₘ as) := by
  -- A ticket that was given out before is not the new one.
  have hold : ∀ b ∈ as, ∀ t, b.ticket? = some t → t ∈ q.parked → t ∈ p.parked := by
    intro b hb t ht hmem
    rw [hparked] at hmem
    rcases List.mem_append.mp hmem with hmem | hnew
    · exact hmem
    · have hle := h.past b hb t ht
      have heq := List.mem_singleton.mp hnew
      omega
  have hfresh : p.tickets + 1 ∉ p.parked := by
    intro hmem
    obtain ⟨b, hb, ht⟩ := h.owned _ hmem
    have hle := h.past b hb _ ht
    omega
  refine ⟨?_, ?_, ?_, ?_, ?_⟩
  · rw [hparked, List.nodup_append]
    refine ⟨h.nodup, List.nodup_singleton _, ?_⟩
    rintro t ht t' ht' rfl
    exact hfresh (List.mem_singleton.mp ht' ▸ ht)
  · intro t ht
    rw [hparked] at ht
    rcases List.mem_append.mp ht with ht | ht
    · obtain ⟨b, hb, hown⟩ := h.owned t ht
      exact ⟨b, Multiset.mem_cons_of_mem hb, hown⟩
    · exact ⟨a, Multiset.mem_cons_self _ _, List.mem_singleton.mp ht ▸ hticket⟩
  · intro b hb t ht
    rw [htickets]
    rcases Multiset.mem_cons.mp hb with rfl | hb
    · have heq : p.tickets + 1 = t := Option.some.inj (hticket.symm.trans ht)
      omega
    · exact Nat.le_succ_of_le (h.past b hb t ht)
  · refine h.current.imp_right fun hbefore b hb hasleep => ?_
    rw [hepoch]
    rcases Multiset.mem_cons.mp hb with rfl | hb
    · exact hcurrent
    · obtain ⟨t, ht, hown⟩ := isAsleep_iff.mp hasleep
      exact hbefore b hb (isAsleep_iff.mpr ⟨t, hold b hb t hown ht, hown⟩)
  · exact .inr (.inr (by omega))

theorem leave_busy (h : p.Attends all 0 (a ::ₘ as)) (hticket : a.ticket? = none)
    (hkeeps : a.isDiscarding = false) : p.Attends all 0 as := by
  have hleft := h.leave (q := p) (List.Sublist.refl _) (by simp [hticket]) rfl rfl rfl
  have halert : a.isAlert p = false := by simp [isAlert, isWoken, hticket, hkeeps]
  rwa [if_neg (by simp [halert])] at hleft

theorem leave_discarding (h : p.Attends all 0 (a ::ₘ as)) (hticket : a.ticket? = none)
    (hdiscards : a.isDiscarding = true) : p.Attends all 1 as := by
  have hleft := h.leave (q := p) (List.Sublist.refl _) (by simp [hticket]) rfl rfl rfl
  have halert : a.isAlert p = true := by simp [isAlert, hdiscards]
  rwa [if_pos halert] at hleft

theorem leave_parked (h : p.Attends all 0 (a ::ₘ as)) {ticket : Nat}
    (hticket : a.ticket? = some ticket) (tallies : Tallies) :
    Pool.Attends { p with parked := p.parked.filter (· != ticket), tallies := tallies } all
      (if a.isAlert p = true then 1 else 0) as := by
  refine h.leave List.filter_sublist ?_ rfl rfl rfl
  intro t ht heq
  obtain rfl : ticket = t := Option.some.inj (hticket.symm.trans heq)
  simp at ht

section Sections

variable {ω : Type} {now : Instant} {a' b : Acquisition} {p' : Pool} {w w' : ω}

/-- Whoever was woken goes to the pool, so that the wake-up is due again; whoever has discarded
something wakes another one first. -/
theorem turn (h : p.Attends all 0 (a ::ₘ as)) (ht : a.Turns now p b q) :
    q.Attends all (if a.isWoken p = true then 1 else 0) as := by
  cases ht with
  | enters hphase =>
    have hticket : a.ticket? = none := by rw [ticket?, hphase]
    have hwoken : a.isWoken p = false := by simp [isWoken, hticket]
    rw [if_neg (by simp [hwoken])]
    exact h.leave_busy hticket (by rw [isDiscarding, hphase])
  | @wakes ticket wakeAt waitTime lastPass hphase hepoch =>
    have hticket : a.ticket? = some ticket := by rw [ticket?, hphase]
    have hleft := h.leave_parked hticket { p.tallies with waitTime := waitTime }
    have halert : a.isAlert p = a.isWoken p := by
      unfold isAlert isDiscarding
      rw [hphase, hepoch, Bool.false_or, beq_self_eq_true, Bool.and_true]
    rwa [halert] at hleft
  | outdated hphase | bad hphase =>
    have hticket : a.ticket? = none := by rw [ticket?, hphase]
    have hwoken : a.isWoken p = false := by simp [isWoken, hticket]
    have hleft := h.leave_discarding hticket (by rw [isDiscarding, hphase])
    rw [if_neg (by simp [hwoken])]
    exact hleft.notifyOne.move rfl rfl rfl (.inr (le_refl _))

variable [Server ω]

/-- One place is taken for one wake-up, or there was none. -/
theorem look (h : q.Attends all k as) (hdue : k ≤ 1) (hidle : q.idle ≠ [] → q.hasRoom = true)
    (hrefused : 0 < k → q.hasRoom = true → a'.result? = none)
    (hlate : ∀ t, a'.ticket? = some t → a'.epoch = q.epoch) (hl : b.Looks now q w a' p' w') :
    p'.Attends all 0 (a' ::ₘ as) := by
  have hfull : q.hasRoom = false → q.room = 0 := by
    intro hroom
    have hnot := mt q.hasRoom_iff.mpr (by simp [hroom])
    omega
  cases hl with
  | picks hslot =>
    have hroom := q.hasRoom_iff.mp (hidle (by simp [hslot]))
    refine join (k := 0) (h.move rfl rfl rfl (.inr ?_)) rfl (Nat.zero_le _)
    unfold room at hroom ⊢
    dsimp only
    omega
  | opens hnone hroom hconnect =>
    have hroom := q.hasRoom_iff.mp hroom
    refine join (k := 0) (h.move rfl rfl rfl (.inr ?_)) rfl (Nat.zero_le _)
    unfold room newSlot newWrapper at *
    dsimp only
    omega
  | refused hnone hroom hconnect =>
    -- Nobody who was woken gets here.
    have hnothing : k = 0 := by
      by_contra hdue
      exact absurd (hrefused (by omega) hroom) (by simp [fail, goTo, result?])
    subst hnothing
    exact h.join rfl (Nat.zero_le _)
  | reclaims hnone hroom hactive hoverdue =>
    have hfull := hfull hroom
    refine join (k := 0) (h.move rfl rfl rfl (.inl ?_)) rfl (Nat.zero_le _)
    unfold room at hfull ⊢
    rw [hactive, List.length_cons] at hfull
    unfold reclaim rewrap newWrapper invalidate
    dsimp only
    omega
  | waits hnone hroom hlast hoverdue =>
    exact h.park (hfull hroom) rfl rfl rfl rfl rfl (hlate _ rfl)
  | givesUp hnone hroom hlast hoverdue =>
    exact join (k := 0) (h.move rfl rfl rfl (.inl (hfull hroom))) rfl (Nat.zero_le _)

/-- No section of an acquisition loses a wake-up, unless the acquisition was woken and leaves though
there is room, or waits though it was interrupted. -/
theorem of_section (h : p.Attends all 0 (a ::ₘ as)) (hidle : p.idle ≠ [] → p.hasRoom = true)
    (hrefused : a.isWoken p = true → p.epoch = a.epoch → p.hasRoom = true → a'.result? = none)
    (hlate : a.isAsleep p = false → ∀ t, a'.ticket? = some t → a'.epoch = p.epoch)
    (hs : a.Section now p w a' p' w') : p'.Attends all 0 (a' ::ₘ as) := by
  cases hs with
  | @looks b a' q p' w' hturn hlooks =>
    have hafter := h.turn hturn
    have hepoch := hlooks.epoch
    have hdue : (if a.isWoken p = true then 1 else 0) ≤ 1 := by split <;> omega
    cases hturn with
    | enters hphase =>
      have hwoken : a.isWoken p = false := by simp [isWoken, ticket?, hphase]
      exact hafter.look hdue hidle (by simp [hwoken]) (fun _ _ => hepoch) hlooks
    | wakes hphase hcurrent =>
      refine hafter.look hdue hidle ?_ (fun _ _ => hepoch.trans hcurrent.symm) hlooks
      intro hdue hroom
      refine hrefused ?_ hcurrent hroom
      by_contra hwoken
      simp [hwoken] at hdue
    | outdated hphase | bad hphase =>
      have hwoken : a.isWoken p = false := by simp [isWoken, ticket?, hphase]
      have hawake : a.isAsleep p = false := by simp [isAsleep, hphase]
      exact hafter.look hdue hidle (by simp [hwoken]) (hlate hawake) hlooks
  | @interrupted ticket wakeAt waitTime hphase hepoch =>
    have hticket : a.ticket? = some ticket := by rw [ticket?, hphase]
    have hleft := h.leave_parked hticket { p.tallies with waitTime := waitTime }
    have halert : a.isAlert p = false := by
      have hother : (a.epoch == p.epoch) = false := beq_eq_false_iff_ne.mpr (Ne.symm hepoch)
      simp [isAlert, isDiscarding, hphase, hother]
    rw [if_neg (by simp [halert])] at hleft
    exact hleft.join rfl (Nat.zero_le _)
  | passes hphase htest | failsTest hphase htest | finishes hphase =>
    have hleft := h.leave_busy (by rw [ticket?, hphase]) (by rw [isDiscarding, hphase])
    exact hleft.join rfl (Nat.zero_le _)
  | handsOut hphase =>
    have hleft := h.leave_busy (by rw [ticket?, hphase]) (by rw [isDiscarding, hphase])
    -- What was being checked is in use now.
    refine join (k := 0) (hleft.move rfl rfl rfl (.inr ?_)) rfl (Nat.zero_le _)
    unfold room register
    dsimp only
    rw [List.length_append, List.length_singleton]
    omega
  | rejects hphase hbad hgood =>
    have hleft := h.leave_busy (by rw [ticket?, hphase]) (by rw [isDiscarding, hphase])
    -- A place becomes free, and whoever discards the candidate will say so.
    refine join (k := 1) (hleft.move rfl rfl rfl (.inr ?_)) rfl (le_refl _)
    unfold room invalidate
    dsimp only
    omega
  | closes hphase =>
    have hleft := h.leave_discarding (by rw [ticket?, hphase]) (by rw [isDiscarding, hphase])
    exact hleft.join rfl (le_refl _)
  | despairs hphase =>
    have hleft := h.leave_discarding (by rw [ticket?, hphase]) (by rw [isDiscarding, hphase])
    exact join (k := 0) (hleft.notifyOne.move rfl rfl rfl (.inr (le_refl _))) rfl (Nat.zero_le _)

/-- A return that makes a place free wakes one acquisition for it. -/
theorem of_return {wrapper : Nat} (h : p.Attends all 0 as) (hr : p.Return now wrapper w p' w') :
    p'.Attends all 0 as := by
  -- One place becomes free, whatever becomes of the slot, and somebody is woken for it.
  have hone {slot : Slot} {before after : List Slot}
      (hactive : p.active = before ++ slot :: after) :
      p.config.maxActive.toNat - ((before ++ after).length + p.pending) ≤ p.room + 1 := by
    have hlength := length_of_removed hactive
    unfold room
    omega
  cases hr with
  | late hnone => exact h.move rfl rfl rfl (.inr (le_refl _))
  | fails hfind hactive => exact notifyOne (h.move rfl rfl rfl (.inr (hone hactive)))
  | keeps hfind hactive => exact notifyOne (h.move rfl rfl rfl (.inr (hone hactive)))
  | closes hfind hactive => exact notifyOne (h.move rfl rfl rfl (.inr (hone hactive)))

end Sections

end Pool.Attends

namespace Inventory

variable {v v' : Inventory}

/-- An idle connection takes a place that could also be given to a new one: there are no slots, or
those that are being checked fit in with them, out of date or not. -/
def Spares (v : Inventory) : Prop :=
  v.active.length + v.idle.length + v.fresh = 0 ∨
    v.active.length + v.idle.length + v.pending ≤ v.maxActive

theorem fresh_cons {c : Candidate} {rest : Multiset Candidate} (h : v.candidates = c ::ₘ rest) :
    v.fresh = rest.countP (·.generation = v.generation) +
      if c.generation = v.generation then 1 else 0 := by
  rw [fresh, h, Multiset.countP_cons]

theorem Spares.transfer (h : v.Spares) (hf : v.Fits) (ht : v.Transfer v') : v'.Spares := by
  unfold Spares at h ⊢
  cases ht with
  | same | fail | close | ask | answer => exact h
  | pick hidle =>
    rw [hidle, List.length_cons] at h
    dsimp only
    omega
  | connect hidle hroom =>
    rw [hidle, List.length_nil] at h ⊢
    dsimp only
    omega
  | reclaim hidle hactive =>
    rw [hactive, List.length_cons] at h
    dsimp only
    omega
  | pass hcandidates | failTest hcandidates | finish hcandidates =>
    rw [fresh_cons hcandidates] at h
    rw [fresh_cons rfl]
    exact h
  | handOut hcandidates =>
    have hpending := hf.pending
    rw [hcandidates, Multiset.card_cons] at hpending
    rw [fresh_cons hcandidates, if_pos rfl] at h
    rw [List.length_append, List.length_singleton]
    dsimp only
    omega
  | reject hcandidates =>
    rw [fresh_cons hcandidates] at h
    unfold fresh
    dsimp only
    omega
  | keep hactive =>
    rw [hactive, List.length_append, List.length_cons] at h
    rw [List.length_append, List.length_append, List.length_singleton]
    unfold fresh at h ⊢
    dsimp only
    omega
  | discard hactive =>
    rw [hactive, List.length_append, List.length_cons] at h
    rw [List.length_append]
    unfold fresh at h ⊢
    dsimp only
    omega
  | tearDown maxActive maxIdle =>
    -- Every candidate was chosen before.
    have hold : v.candidates.countP (·.generation = v.generation + 1) = 0 := by
      rw [Multiset.countP_eq_zero]
      exact fun c hc => Nat.ne_of_lt (Nat.lt_succ_of_le (hf.past c hc))
    refine .inl ?_
    rw [fresh, hold]
    rfl

end Inventory

def Chore.isWakeUp : Chore → Bool
  | .wakeAll => true
  | .close _ => false

namespace Scene

def wakesAll (s : Scene ω) : Bool := s.chores.any (·.any Chore.isWakeUp)

def Attends (s : Scene ω) : Prop := s.pool.Attends s.wakesAll 0 ↑s.acquisitions

theorem hasRoom_of_idle {s : Scene ω} (h : s.inventory.Spares) (hidle : s.pool.idle ≠ []) :
    s.pool.hasRoom = true := by
  have hlength : 0 < s.pool.idle.length := List.length_pos_of_ne_nil hidle
  rcases h with hnone | hfits
  · have hnone' : s.pool.active.length + s.pool.idle.length + s.inventory.fresh = 0 := hnone
    omega
  · have hfits' : s.pool.active.length + s.pool.idle.length + s.pool.pending ≤
        s.pool.config.maxActive.toNat := hfits
    rw [Pool.hasRoom, decide_eq_true_iff]
    omega

theorem wakesAll_tearDown (s : Scene ω) (p : Pool) : (s.tearDown p).wakesAll = true := by
  unfold tearDown wakesAll
  rw [Pool.tearDown_eq]
  simp [Chore.isWakeUp]

theorem wakesAll_set {s : Scene ω} {k : Nat} {chore : Chore} {rest : List Chore}
    (hget : s.chores[k]? = some (chore :: rest)) (hchore : chore.isWakeUp = false) :
    (s.chores.set k rest).any (·.any Chore.isWakeUp) = s.wakesAll := by
  obtain ⟨hk, heq⟩ := List.getElem?_eq_some_iff.mp hget
  have hbefore := (List.getElem_cons_eraseIdx_perm hk).any_eq (f := (·.any Chore.isWakeUp))
  have hafter := (List.set_perm_cons_eraseIdx hk rest).any_eq (f := (·.any Chore.isWakeUp))
  rw [wakesAll, hafter, ← hbefore, heq, List.any_cons, List.any_cons, List.any_cons, hchore,
    Bool.false_or]

theorem attends_put {s : Scene ω} {i : Nat} {a' : Acquisition}
    (h : s.pool.Attends s.wakesAll 0 (a' ::ₘ ↑(s.acquisitions.eraseIdx i)))
    (hi : i < s.acquisitions.length) : (s.put i a').Attends := by
  unfold put
  cases hresult : a'.result? with
  | none =>
    have hperm : (↑(s.acquisitions.set i a') : Multiset Acquisition) =
        a' ::ₘ ↑(s.acquisitions.eraseIdx i) :=
      Multiset.coe_eq_coe.mpr (List.set_perm_cons_eraseIdx hi a')
    unfold Attends
    dsimp only
    rw [hperm]
    exact h
  | some r =>
    have hphase := Acquisition.phase_of_result? hresult
    have hleft := h.leave_busy (by rw [Acquisition.ticket?, hphase])
      (by rw [Acquisition.isDiscarding, hphase])
    cases r with
    | ok handle => exact hleft
    | error e => exact hleft

/-- Whoever is parked and was not woken takes its own time; everybody else goes on at once. -/
theorem eq_of_sleep? [Clock ω] {a : Acquisition} {p : Pool} {l l' : Ledger ω}
    (hsleep : a.sleep? p l = some l') (hawake : a.isAsleep p = false) : l' = l := by
  unfold Acquisition.sleep? at hsleep
  rw [if_neg (by simp [hawake])] at hsleep
  exact (Option.some.inj hsleep).symm

variable [Server ω] [Clock ω]

/-- Whether a step loses a wake-up. An acquisition was woken and found room, but could not open a
connection and leaves; or it was interrupted while it was busy, and waits, to leave as soon as it is
woken. -/
def loses (s : Scene ω) : Event ω → Bool
  | .proceed i => s.acquisitions[i]?.any fun a =>
    let a' := (a.step undisturbed s.pool s.ledger).1
    a.isWoken s.pool && a.epoch == s.pool.epoch && s.pool.hasRoom && a'.result?.isSome ||
      a'.ticket?.isSome && a'.epoch != s.pool.epoch
  | _ => false

def losesIn (s : Scene ω) : List (Event ω) → Bool
  | [] => false
  | e :: events => s.loses e || (s.step e).losesIn events

variable {s : Scene ω}

/-- Every event that loses no wake-up leaves as many acquisitions on their way as there are free
places, or nobody waits. -/
theorem Attends.step {e : Event ω} (h : s.Attends) (hspares : s.inventory.Spares)
    (hkept : s.loses e = false) : (s.step e).Attends := by
  have hmoves := s.moves_step e
  generalize s.step e = s' at hmoves ⊢
  cases hmoves with
  | @begins username password hthere =>
    let a := Acquisition.start username password (Clock.read s.ledger).1
    have hperm : (↑(s.acquisitions ++ [a]) : Multiset Acquisition) = a ::ₘ ↑s.acquisitions :=
      Multiset.coe_eq_coe.mpr (List.perm_append_singleton _ _)
    unfold Attends
    dsimp only
    rw [hperm]
    exact Pool.Attends.join h rfl (Nat.zero_le _)
  | @proceeds i a a' p' l l' hget hover hsleep hstep hsection =>
    obtain ⟨hi, -⟩ := List.getElem?_eq_some_iff.mp hget
    have hbefore : s.pool.Attends s.wakesAll 0 (a ::ₘ ↑(s.acquisitions.eraseIdx i)) := by
      rw [← coe_eq_cons_eraseIdx hget]
      exact h
    have hsame (hawake : a.isAsleep s.pool = false) :
        (a.step undisturbed s.pool s.ledger).1 = a' := by
      rw [← eq_of_sleep? hsleep hawake, hstep]
    have hkept' : (a.isWoken s.pool && a.epoch == s.pool.epoch && s.pool.hasRoom &&
          (a.step undisturbed s.pool s.ledger).1.result?.isSome) = false ∧
        ((a.step undisturbed s.pool s.ledger).1.ticket?.isSome &&
          (a.step undisturbed s.pool s.ledger).1.epoch != s.pool.epoch) = false := by
      rw [← Bool.or_eq_false_iff]
      simpa [loses, hget] using hkept
    refine attends_put (s := { s with pool := p', ledger := l' }) ?_ hi
    refine hbefore.of_section (hasRoom_of_idle hspares) ?_ ?_ hsection
    · intro hwoken hepoch hroom
      have hawake : a.isAsleep s.pool = false := by
        obtain ⟨t, ht, hticket⟩ := Acquisition.isWoken_iff.mp hwoken
        by_contra hasleep
        obtain ⟨t', ht', hticket'⟩ := Acquisition.isAsleep_iff.mp (by simpa using hasleep)
        obtain rfl : t = t' := Option.some.inj (hticket.symm.trans hticket')
        exact ht ht'
      simpa [hsame hawake, hwoken, hepoch, hroom] using hkept'.1
    · intro hawake t hticket
      simpa [hsame hawake, hticket] using hkept'.2
  | returns hget hfree hfirst hthere hgiveBack hreturn => exact Pool.Attends.of_return h hreturn
  | closesAll dropped htears hconfig | reconfigures htears =>
    unfold Attends
    rw [wakesAll_tearDown]
    unfold tearDown
    rw [Pool.tearDown_eq]
    exact Pool.Attends.wakeAll h rfl rfl
  | interrupts =>
    have hwakes : (s.chores ++ [[Chore.wakeAll]]).any (·.any Chore.isWakeUp) = true := by
      simp [Chore.isWakeUp]
    unfold Attends wakesAll
    rw [hwakes]
    exact Pool.Attends.wakeAll h rfl rfl
  | wakesAll hget => exact .of_nobody rfl h.past
  | closes hget =>
    unfold Attends wakesAll
    rw [wakesAll_set hget rfl]
    exact h
  | stays | asks | answers | outlives | returnsAgain | keepsHandle | disturbs | nothing => exact h

theorem losesIn_run (events : List (Event ω)) (hattends : s.Attends) (hfits : s.inventory.Fits)
    (hspares : s.inventory.Spares) (hkept : s.losesIn events = false) :
    (s.run events).Attends ∧ (s.run events).inventory.Spares := by
  unfold run
  -- On the events, for any scene in which no wake-up was lost so far.
  induction events generalizing s with
  | nil => exact ⟨hattends, hspares⟩
  | cons e events ih =>
    obtain ⟨hstep, hlater⟩ : s.loses e = false ∧ (s.step e).losesIn events = false := by
      simpa [losesIn] using hkept
    have htransfer := s.transfer_step e
    exact ih (hattends.step hspares hstep) (hfits.transfer htransfer)
      (hspares.transfer hfits htransfer) hlater

/-- Nobody waits next to a free place. As long as no wake-up is lost, for every interleaving: if an
acquisition is parked and was not woken though a connection is idle or there is room for one, then
either another one, which was woken or closes what it has discarded, is on its way to the pool, or
an operation is about to wake everybody. -/
theorem run_strands_nobody (settings : ConnectionSettings) (config : PoolConfig) (server : ω)
    (events : List (Event ω)) (hkept : (start settings config server).losesIn events = false) :
    let s := (start settings config server).run events
    ∀ a ∈ s.acquisitions, a.isAsleep s.pool = true →
      s.pool.idle ≠ [] ∨ s.pool.hasRoom = true →
        s.wakesAll = true ∨ ∃ b ∈ s.acquisitions, b.isAlert s.pool = true := by
  intro s a ha hasleep hfree
  have hattends : (start settings config server).Attends :=
    .of_nobody rfl fun b hb => absurd hb (Multiset.notMem_zero b)
  obtain ⟨hattends, hspares⟩ := losesIn_run events hattends
    (fits_start settings config server) (.inl rfl) hkept
  have hroom : 0 < s.pool.room := s.pool.hasRoom_iff.mp (hfree.elim (hasRoom_of_idle hspares) id)
  rcases hattends.covered with hall | hnobody | hcovered
  · exact .inl hall
  · obtain ⟨t, ht, -⟩ := Acquisition.isAsleep_iff.mp hasleep
    exact absurd (hnobody ▸ ht) List.not_mem_nil
  · have hsome : 0 < (s.acquisitions : Multiset Acquisition).countP (·.isAlert s.pool = true) :=
      lt_of_lt_of_le hroom hcovered
    obtain ⟨b, hb, halert⟩ := Multiset.countP_pos.mp hsome
    exact .inr ⟨b, hb, halert⟩

def single : Scene Willing := start (.ofUrl "") { PoolConfig.standard with maxActive := 1 } ⟨0⟩

def queueing : List (Event Willing) :=
  acquiring ++ [.acquire none none, .proceed 0, .acquire none none, .proceed 1, .giveBack 0]

/-- The one that waited first was woken for both of them. -/
theorem strands_nobody_behind :
    let s := single.run queueing
    single.losesIn queueing = false ∧
      s.acquisitions.map (·.isAsleep s.pool) = [false, true] ∧ s.pool.idle.length = 1 ∧
      (s.wakesAll = true ∨ ∃ b ∈ s.acquisitions, b.isAlert s.pool = true) := by
  have hsingle : start (.ofUrl "") single.pool.config ⟨0⟩ = single := rfl
  have hkept : single.losesIn queueing = false := by decide
  have hnobody := run_strands_nobody (.ofUrl "") single.pool.config ⟨0⟩ queueing
  rw [hsingle] at hnobody
  obtain ⟨a, ha⟩ : ∃ a, (single.run queueing).acquisitions[1]? = some a :=
    Option.isSome_iff_exists.mp (by decide)
  have hasleep : a.isAsleep (single.run queueing).pool = true := by
    have hsecond : (single.run queueing).acquisitions[1]?.all
        (·.isAsleep (single.run queueing).pool) = true := by decide
    rwa [ha] at hsecond
  refine ⟨hkept, by decide, by decide, ?_⟩
  exact hnobody hkept a (List.mem_of_getElem? ha) hasleep (.inl (by decide))

/-- Two acquisitions wait for the only connection. The server loses it and accepts no other one, and
the connection is given back. -/
def refusing : List (Event (Recorder MemoryServer)) :=
  .acquire none none :: List.replicate 6 (.proceed 0) ++
    [.acquire none none, .proceed 0, .acquire none none, .proceed 1,
      .disturb (·.change fun server => { server.vanish with refusesConnections := true }),
      .giveBack 0, .proceed 0]

/-- The first one is woken and fails to open a connection. The second one waits on, though there is
room and nobody will wake it. -/
theorem strands_after_refusal :
    let s := (start (.ofUrl "") single.pool.config (Recorder.start (.start false))).run refusing
    s.acquisitions.map (·.isAsleep s.pool) = [true] ∧ s.pool.hasRoom = true ∧
      ¬(s.wakesAll = true ∨ ∃ b ∈ s.acquisitions, b.isAlert s.pool = true) := by
  decide

end Scene
end SqlMapper
