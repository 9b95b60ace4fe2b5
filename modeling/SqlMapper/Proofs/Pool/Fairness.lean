import SqlMapper.Proofs.Pool.Calls

/-!
On a connection that the pool may still hand out, the pool has closed nothing, and whatever it did
to undo uncommitted work has succeeded. One failure is enough for a candidate to be discarded.
-/

namespace SqlMapper

open Ledger

namespace Inventory

/-- The connection belongs to a slot that is in use, idle, or a candidate of some kind. -/
def Has (v : Inventory) (P : Candidate → Prop) (n : Nat) : Prop :=
  (∃ slot ∈ v.active, slot.physical.connection = n) ∨
    (∃ slot ∈ v.idle, slot.physical.connection = n) ∨
    ∃ c ∈ v.candidates, P c ∧ c.slot.physical.connection = n

section Has

variable {v v' : Inventory} {P P' : Candidate → Prop} {n : Nat}

theorem forall_has {Q : Nat → Prop} (hactive : ∀ slot ∈ v.active, Q slot.physical.connection)
    (hidle : ∀ slot ∈ v.idle, Q slot.physical.connection)
    (hcandidate : ∀ c ∈ v.candidates, P c → Q c.slot.physical.connection) :
    ∀ n, v.Has P n → Q n := by
  rintro n (⟨slot, hslot, rfl⟩ | ⟨slot, hslot, rfl⟩ | ⟨c, hc, hP, rfl⟩)
  · exact hactive slot hslot
  · exact hidle slot hslot
  · exact hcandidate c hc hP

theorem has_of_active {slot : Slot} (h : slot ∈ v.active) : v.Has P slot.physical.connection :=
  .inl ⟨slot, h, rfl⟩

theorem has_of_idle {slot : Slot} (h : slot ∈ v.idle) : v.Has P slot.physical.connection :=
  .inr (.inl ⟨slot, h, rfl⟩)

theorem has_of_candidate {c : Candidate} (h : c ∈ v.candidates) (hc : P c) :
    v.Has P c.slot.physical.connection :=
  .inr (.inr ⟨c, h, hc, rfl⟩)

theorem Has.mem_titles (h : v.Has P n) : n ∈ v.titles.map (·.2.connection) := by
  refine Multiset.mem_map.mpr ?_
  rcases h with ⟨slot, hslot, rfl⟩ | ⟨slot, hslot, rfl⟩ | ⟨c, hc, -, rfl⟩
  · exact ⟨slot.title, Inventory.mem_titles.mpr (.inl ⟨slot, hslot, rfl⟩), rfl⟩
  · exact ⟨slot.title, Inventory.mem_titles.mpr (.inr (.inl ⟨slot, hslot, rfl⟩)), rfl⟩
  · exact ⟨c.slot.title, Inventory.mem_titles.mpr (.inr (.inr ⟨c, hc, rfl⟩)), rfl⟩

theorem Has.lt (hn : v.Has P n) (h : v.Separate) : n < v.openings.length :=
  h.place_lt n (Multiset.mem_add.mpr (.inl hn.mem_titles))

/-- A transfer brings no connection in but one that it has opened. The kind of candidates that is
looked at may change with it, if whoever is of the new kind was of the old one. -/
theorem Transfer.has (ht : v.Transfer v') (hstays : ∀ c ∈ v.candidates, P' c → P c)
    (htested : ∀ slot generation left stage, ⟨slot, generation, .testing left⟩ ∈ v.candidates →
      P' ⟨slot, generation, stage⟩ → P ⟨slot, generation, .testing left⟩)
    (hgood : ∀ slot, ⟨slot, v.generation, .tested true⟩ ∈ v.candidates →
      P ⟨slot, v.generation, .tested true⟩) :
    ∀ n, v'.Has P' n → v.Has P n ∨ n = v.openings.length := by
  have hactive : ∀ slot ∈ v.active,
      v.Has P slot.physical.connection ∨ slot.physical.connection = v.openings.length :=
    fun _ hslot => .inl (has_of_active hslot)
  have hidle : ∀ slot ∈ v.idle,
      v.Has P slot.physical.connection ∨ slot.physical.connection = v.openings.length :=
    fun _ hslot => .inl (has_of_idle hslot)
  have hcandidate : ∀ c ∈ v.candidates, P' c →
      v.Has P c.slot.physical.connection ∨ c.slot.physical.connection = v.openings.length :=
    fun c hc hP => .inl (has_of_candidate hc (hstays c hc hP))
  -- A slot may change its place or its wrapper, but its connection stays the same.
  cases ht with
  | same | fail | close | ask | answer => exact forall_has hactive hidle hcandidate
  | @pick slot rest hslots =>
    have hfirst : slot ∈ v.idle := hslots ▸ List.mem_cons_self
    refine forall_has hactive (fun s hs => hidle s (hslots ▸ List.mem_cons_of_mem _ hs)) ?_
    exact Multiset.forall_mem_cons.mpr ⟨fun _ => hidle slot hfirst, hcandidate⟩
  | connect hslots hroom hsound hwrapper hphysical =>
    refine forall_has hactive hidle (Multiset.forall_mem_cons.mpr ⟨fun _ => .inr ?_, hcandidate⟩)
    exact congrArg Physical.connection hphysical
  | @reclaim slot slot' rest hslots hoverdue hwrapper hphysical =>
    have holdest : slot ∈ v.active := hoverdue ▸ List.mem_cons_self
    refine forall_has (fun s hs => hactive s (hoverdue ▸ List.mem_cons_of_mem _ hs)) hidle ?_
    refine Multiset.forall_mem_cons.mpr ⟨fun _ => ?_, hcandidate⟩
    rw [hphysical]
    exact hactive slot holdest
  | pass hslots | failTest hslots | finish hslots =>
    have hmem := hslots ▸ Multiset.mem_cons_self _ _
    refine forall_has hactive hidle (Multiset.forall_mem_cons.mpr ⟨fun hP => .inl ?_, ?_⟩)
    · have hold := has_of_candidate hmem (htested _ _ _ _ hmem hP)
      exact hold
    · exact fun c hc => hcandidate c (hslots ▸ Multiset.mem_cons_of_mem hc)
  | @handOut slot slot' rest hslots hwrapper hphysical =>
    have hmem : ⟨slot, v.generation, .tested true⟩ ∈ v.candidates :=
      hslots ▸ Multiset.mem_cons_self _ _
    refine forall_has (List.forall_mem_append.mpr ⟨hactive, ?_⟩) hidle
      fun c hc => hcandidate c (hslots ▸ Multiset.mem_cons_of_mem hc)
    refine List.forall_mem_singleton.mpr (.inl ?_)
    rw [hphysical]
    exact has_of_candidate hmem (hgood slot hmem)
  | reject hslots =>
    exact forall_has hactive hidle
      fun c hc => hcandidate c (hslots ▸ Multiset.mem_cons_of_mem hc)
  | @keep slot slot' before after es hslots hroom hsound hwrapper hphysical hdone =>
    have hmem : slot ∈ v.active := hslots ▸ List.mem_append_right _ List.mem_cons_self
    refine forall_has (fun s hs => hactive s (mem_of_active hslots hs))
      (List.forall_mem_append.mpr ⟨hidle, List.forall_mem_singleton.mpr ?_⟩) hcandidate
    rw [hphysical]
    exact hactive slot hmem
  | discard hslots habout hclosed =>
    exact forall_has (fun s hs => hactive s (mem_of_active hslots hs)) hidle hcandidate
  | tearDown maxActive maxIdle =>
    exact forall_has (List.forall_mem_nil _) (List.forall_mem_nil _) hcandidate

end Has

def IsFit (v : Inventory) (n : Nat) : Prop :=
  (∃ slot ∈ v.active, slot.physical.connection = n) ∨
    (∃ slot ∈ v.idle, slot.physical.connection = n) ∨
    ∃ c ∈ v.candidates, c.stage ≠ .tested false ∧ c.slot.physical.connection = n

structure Fair (v : Inventory) : Prop where
  opened : ∀ e ∈ v.entries, e.connection < v.openings.length
  holders : ∀ e ∈ v.entries, e.caller ≠ none → e.call ≠ .close
  fit : ∀ n, v.IsFit n → IsFairAt n v.entries

variable {v v' : Inventory}

theorem IsFit.lt (h : v.Separate) {n : Nat} (hn : v.IsFit n) : n < v.openings.length :=
  Has.lt hn h

theorem isFit_of_candidate {c : Candidate} (h : c ∈ v.candidates) (hc : c.stage ≠ .tested false) :
    v.IsFit c.slot.physical.connection :=
  .inr (.inr ⟨c, h, hc, rfl⟩)

/-- What is fit after a transfer was fit before, or is new. -/
theorem Transfer.isFit (ht : v.Transfer v') :
    ∀ n, v'.IsFit n → v.IsFit n ∨ n = v.openings.length :=
  ht.has (fun _ _ hstage => hstage) (fun _ _ _ _ _ _ => by simp) (fun _ _ => by simp)

theorem Separate.ne_of_isFit (h : v.Separate) {t : Nat × Physical} {n : Nat} {u : Inventory}
    (htitles : v.titles = t ::ₘ u.titles) (hn : u.IsFit n) : n ≠ t.2.connection := by
  rintro rfl
  have hnodup := (Multiset.nodup_add.mp h.places).1
  rw [htitles, Multiset.map_cons, Multiset.nodup_cons] at hnodup
  exact hnodup.1 (Has.mem_titles hn)

theorem Separate.ne_of_condemned (h : v.Separate) {slot : Slot} (hslot : slot ∈ v.condemned)
    {n : Nat} (hn : v.IsFit n) : n ≠ slot.physical.connection := by
  rintro rfl
  have hdisjoint := (Multiset.nodup_add.mp h.places).2.2
  refine Multiset.disjoint_left.mp hdisjoint (Has.mem_titles hn) ?_
  exact Multiset.mem_map_of_mem _ hslot

/-- Entries of the pool about one connection, which are fair or leave it unfit. -/
theorem Fair.write (h : v.Fair) {m : Nat} {es : List Entry}
    (hentries : v'.entries = es ++ v.entries)
    (hopenings : v.openings.length ≤ v'.openings.length) (habout : IsAbout m es)
    (hm : m < v'.openings.length)
    (hfit : ∀ n, v'.IsFit n → (v.IsFit n ∨ n = v.openings.length) ∧
      (n = m → ∀ e ∈ es, e.IsFair)) : v'.Fair where
  opened := by
    rw [hentries]
    intro e he
    rcases List.mem_append.mp he with he | he
    · rw [(habout e he).2]
      exact hm
    · exact lt_of_lt_of_le (h.opened e he) hopenings
  holders := by
    rw [hentries]
    intro e he hcaller
    rcases List.mem_append.mp he with he | he
    · exact absurd (habout e he).1 hcaller
    · exact h.holders e he hcaller
  fit := by
    intro n hn
    obtain ⟨hold, hfair⟩ := hfit n hn
    rw [hentries]
    refine isFairAt_append ?_ ?_
    · exact fun e he heq _ => hfair (heq ▸ (habout e he).2) e he
    · rcases hold with hold | rfl
      · exact h.fit n hold
      -- Nothing is written yet about a connection that was not there.
      · exact fun e he heq => absurd (heq ▸ h.opened e he) (Nat.lt_irrefl _)

theorem Fair.move (h : v.Fair) (hentries : v'.entries = v.entries)
    (hopenings : v'.openings = v.openings)
    (hfit : ∀ n, v'.IsFit n → v.IsFit n ∨ n = v.openings.length) : v'.Fair where
  opened := by
    rw [hentries, hopenings]
    exact h.opened
  holders := by
    rw [hentries]
    exact h.holders
  fit := by
    rw [hentries]
    intro n hn
    rcases hfit n hn with hold | rfl
    · exact h.fit n hold
    · exact fun e he heq => absurd (heq ▸ h.opened e he) (Nat.lt_irrefl _)

/-- No transfer writes anything unfair about a connection that is fit afterwards. -/
theorem Fair.transfer (h : v.Fair) (hs : v.Separate) (hg : v.Guarded)
    (ht : v.Transfer v') : v'.Fair := by
  have hfit := ht.isFit
  have hgrows := ht.openings_grow.length_le
  cases ht with
  | same | pick | reclaim | finish | handOut | reject | tearDown | ask =>
    exact h.move rfl rfl hfit
  | fail habout hclosed =>
    refine h.write rfl hgrows habout ?_ fun n hn => ⟨hfit n hn, ?_⟩
    · rw [List.length_append]
      exact Nat.lt_succ_self _
    -- The connection that failed is a new one, which nothing has that is fit.
    · rintro rfl
      exact absurd (IsFit.lt (v := v) hs hn) (Nat.lt_irrefl _)
  | connect hidle hroom hsound hwrapper hphysical =>
    refine h.write rfl hgrows hsound.about ?_ fun n hn => ⟨hfit n hn, fun _ => hsound.fair⟩
    rw [List.length_append]
    exact Nat.lt_succ_self _
  | @pass slot generation test left rest es hcandidates hpassed hfree =>
    have hslot : v.IsFit slot.physical.connection :=
      isFit_of_candidate (hcandidates ▸ Multiset.mem_cons_self _ _) (by simp)
    exact h.write rfl hgrows hpassed.sound.about (IsFit.lt hs hslot)
      fun n hn => ⟨hfit n hn, fun _ => hpassed.sound.fair⟩
  | @failTest slot generation test left rest es hcandidates habout =>
    have hslot : v.IsFit slot.physical.connection :=
      isFit_of_candidate (hcandidates ▸ Multiset.mem_cons_self _ _) (by simp)
    refine h.write rfl hgrows habout (IsFit.lt hs hslot) fun n hn => ⟨hfit n hn, ?_⟩
    -- The connection of the candidate itself is not fit any more.
    have hrest : IsFit { v with candidates := rest } n := by
      revert n
      refine forall_has (fun _ hs => has_of_active hs) (fun _ hs => has_of_idle hs) ?_
      refine Multiset.forall_mem_cons.mpr ⟨fun hstage => absurd rfl hstage, ?_⟩
      exact fun c hc hstage => has_of_candidate hc hstage
    have htitles := titles_of_candidates hcandidates
    exact fun heq => absurd heq (hs.ne_of_isFit htitles hrest)
  | @close slot rest es hcondemned habout hclosed =>
    have hmem : slot ∈ v.condemned := hcondemned ▸ Multiset.mem_cons_self _ _
    refine h.write rfl hgrows habout ?_ fun n hn => ⟨hfit n hn, ?_⟩
    · exact hs.place_lt _ (Multiset.mem_add.mpr (.inr (Multiset.mem_map_of_mem _ hmem)))
    · exact fun heq => absurd heq (hs.ne_of_condemned hmem hn)
  | @keep slot slot' before after es hactive hroom hsound hwrapper hphysical hdone =>
    have hmem : slot ∈ v.active := hactive ▸ List.mem_append_right _ List.mem_cons_self
    exact h.write rfl hgrows hsound.about (IsFit.lt hs (has_of_active hmem))
      fun n hn => ⟨hfit n hn, fun _ => hsound.fair⟩
  | @discard slot before after es hactive habout hclosed =>
    have hmem : slot ∈ v.active := hactive ▸ List.mem_append_right _ List.mem_cons_self
    have htitles := titles_of_active before after hactive
    exact h.write rfl hgrows habout (IsFit.lt hs (has_of_active hmem))
      fun n hn => ⟨hfit n hn, fun heq => absurd heq (hs.ne_of_isFit htitles hn)⟩
  | @answer c rest reply hcalls =>
    have hmem : c ∈ v.calls := hcalls ▸ Multiset.mem_cons_self _ _
    refine ⟨?_, ?_, ?_⟩
    · exact List.forall_mem_cons.mpr ⟨hg.opened c hmem, h.opened⟩
    · exact List.forall_mem_cons.mpr ⟨fun _ => hg.not_close c hmem, h.holders⟩
    -- The answer is the holder's, not the pool's.
    · intro n hn
      exact List.forall_mem_cons.mpr ⟨fun _ hcaller => absurd hcaller (by simp), h.fit n hn⟩

theorem Fair.isClosed_eq_false (h : v.Fair) {n : Nat} (hn : v.IsFit n) :
    isClosed n v.entries = false := by
  rw [isClosed, List.any_eq_false]
  intro e he
  have hstays : e.connection = n → e.call ≠ .close := by
    intro heq
    -- The pool closes nothing that is fit, and a holder closes nothing at all.
    by_cases hcaller : e.caller = none
    · exact (h.fit n hn e he heq hcaller).stays
    · exact h.holders e he hcaller
  simpa using hstays

structure Orderly (v : Inventory) : Prop where
  separate : v.Separate
  holds : v.Holds
  guarded : v.Guarded
  fair : v.Fair

theorem Orderly.transfer (h : v.Orderly) (ht : v.Transfer v') : v'.Orderly where
  separate := h.separate.transfer ht
  holds := h.holds.transfer h.separate ht
  guarded := h.guarded.transfer h.separate h.holds ht
  fair := h.fair.transfer h.separate h.guarded ht

end Inventory

namespace Scene

variable {ω : Type}

theorem orderly_start (settings : ConnectionSettings) (config : PoolConfig) (server : ω) :
    (start settings config server).inventory.Orderly where
  separate := separate_start settings config server
  holds := holds_start settings config server
  guarded := guarded_start settings config server
  fair := by
    refine ⟨?_, ?_, ?_⟩
    · exact fun e he => absurd he List.not_mem_nil
    · exact fun e he => absurd he List.not_mem_nil
    · exact fun n _ e he => absurd he List.not_mem_nil

theorem orderly_run [Server ω] [Clock ω] (settings : ConnectionSettings) (config : PoolConfig)
    (server : ω) (events : List (Event ω)) :
    ((start settings config server).run events).inventory.Orderly :=
  run_induction settings config server (orderly_start settings config server)
    (fun _ _ => Inventory.Orderly.transfer) events

end Scene
end SqlMapper
