import SqlMapper.Proofs.Pool.Titles

/-!
Who holds what. A handle can use its connection as long as its wrapper is the one of a slot in use,
and no two handles can use the same connection at a time.
-/

namespace SqlMapper

namespace Inventory

/-- A wrapper that was handed out was never that of an idle slot or of a candidate since, and as
long as it is in use, it is for the connection that it was handed out for. -/
structure Holds (v : Inventory) : Prop where
  handle_le : ∀ h ∈ v.handles, h.1 ≤ v.wrappers
  idle_ne : ∀ h ∈ v.handles, ∀ slot ∈ v.idle, slot.wrapper ≠ h.1
  candidate_ne : ∀ h ∈ v.handles, ∀ c ∈ v.candidates, c.slot.wrapper ≠ h.1
  active_eq : ∀ h ∈ v.handles, ∀ slot ∈ v.active, slot.wrapper = h.1 → slot.physical = h.2
  once : (v.handles.map (·.1)).Nodup

variable {v v' : Inventory}

/-- Without a hand-out, a slot that is idle or a candidate was so before, or has a new wrapper, and
a slot in use was so before. -/
theorem Holds.of_slots (h : v.Holds) (hhandles : v'.handles = v.handles)
    (hwrappers : v.wrappers ≤ v'.wrappers)
    (hidle : ∀ slot ∈ v'.idle, slot ∈ v.idle ∨ v.wrappers < slot.wrapper)
    (hcandidates : ∀ c ∈ v'.candidates, c.slot ∈ v.idle ∨ (∃ d ∈ v.candidates, d.slot = c.slot) ∨
      v.wrappers < c.slot.wrapper)
    (hactive : ∀ slot ∈ v'.active, slot ∈ v.active) : v'.Holds where
  handle_le := by
    rw [hhandles]
    exact fun hd hhd => le_trans (h.handle_le hd hhd) hwrappers
  idle_ne := by
    rw [hhandles]
    intro hd hhd slot hslot
    rcases hidle slot hslot with hold | hnew
    · exact h.idle_ne hd hhd slot hold
    · exact Nat.ne_of_gt (lt_of_le_of_lt (h.handle_le hd hhd) hnew)
  candidate_ne := by
    rw [hhandles]
    intro hd hhd c hc
    rcases hcandidates c hc with hold | ⟨d, hdc, heq⟩ | hnew
    · exact h.idle_ne hd hhd c.slot hold
    · rw [← heq]
      exact h.candidate_ne hd hhd d hdc
    · exact Nat.ne_of_gt (lt_of_le_of_lt (h.handle_le hd hhd) hnew)
  active_eq := by
    rw [hhandles]
    exact fun hd hhd slot hslot => h.active_eq hd hhd slot (hactive slot hslot)
  once := by
    rw [hhandles]
    exact h.once

theorem candidate_of_restage {slot : Slot} {generation : Nat} {stage stage' : Stage}
    {rest : Multiset Candidate} (h : v.candidates = ⟨slot, generation, stage⟩ ::ₘ rest) :
    ∀ c ∈ ⟨slot, generation, stage'⟩ ::ₘ rest, ∃ d ∈ v.candidates, d.slot = c.slot := by
  intro c hc
  rw [h]
  rcases Multiset.mem_cons.mp hc with rfl | hc
  · exact ⟨_, Multiset.mem_cons_self _ _, rfl⟩
  · exact ⟨c, Multiset.mem_cons_of_mem hc, rfl⟩

theorem mem_of_active {slot s : Slot} {before after : List Slot}
    (h : v.active = before ++ slot :: after) (hs : s ∈ before ++ after) : s ∈ v.active := by
  rw [h]
  rcases List.mem_append.mp hs with hs | hs
  · exact List.mem_append_left _ hs
  · exact List.mem_append_right _ (List.mem_cons_of_mem _ hs)

/-- Handing a candidate out makes its handle the only one that can use its connection. -/
theorem Holds.handOut (h : v.Holds) (hs : v.Separate) {slot slot' : Slot} {generation : Nat}
    {stage : Stage} {rest : Multiset Candidate}
    (hcandidates : v.candidates = ⟨slot, generation, stage⟩ ::ₘ rest)
    (hwrapper : slot'.wrapper = slot.wrapper) (hphysical : slot'.physical = slot.physical) :
    Holds { v with
      candidates := rest
      pending := v.pending - 1
      active := v.active ++ [slot']
      handles := v.handles ++ [(slot.wrapper, slot.physical)] } := by
  have hmem : (⟨slot, generation, stage⟩ : Candidate) ∈ v.candidates :=
    hcandidates ▸ Multiset.mem_cons_self _ _
  have hle : slot.wrapper ≤ v.wrappers :=
    hs.wrapper_le slot.title (mem_titles.mpr (.inr (.inr ⟨_, hmem, rfl⟩)))
  -- The wrapper is that of the candidate alone.
  have hnodup := hs.wrappers
  rw [titles, hcandidates, titlesOf_candidates, Multiset.map_cons, Multiset.nodup_cons] at hnodup
  have hother (t : Nat × Physical) (ht : t ∈ titlesOf v.active v.idle rest) :
      t.1 ≠ slot.wrapper := by
    intro heq
    exact hnodup.1 (Multiset.mem_map.mpr ⟨t, ht, heq⟩)
  have hothers {t : Nat × Physical} := mem_titlesOf v.active v.idle rest (t := t)
  have hhandle (hd : Nat × Physical) (hhd : hd ∈ v.handles) : slot.wrapper ≠ hd.1 :=
    h.candidate_ne hd hhd _ hmem
  refine ⟨?_, ?_, ?_, ?_, ?_⟩
  · intro hd hhd
    rcases List.mem_append.mp hhd with hhd | hhd
    · exact h.handle_le hd hhd
    · obtain rfl := List.mem_singleton.mp hhd
      exact hle
  · intro hd hhd s hslot
    rcases List.mem_append.mp hhd with hhd | hhd
    · exact h.idle_ne hd hhd s hslot
    · obtain rfl := List.mem_singleton.mp hhd
      exact hother s.title (hothers.mpr (.inr (.inl ⟨s, hslot, rfl⟩)))
  · intro hd hhd c hc
    rcases List.mem_append.mp hhd with hhd | hhd
    · exact h.candidate_ne hd hhd c (hcandidates ▸ Multiset.mem_cons_of_mem hc)
    · obtain rfl := List.mem_singleton.mp hhd
      exact hother c.slot.title (hothers.mpr (.inr (.inr ⟨c, hc, rfl⟩)))
  · intro hd hhd s hslot heq
    rcases List.mem_append.mp hslot with hslot | hslot
    · rcases List.mem_append.mp hhd with hhd | hhd
      · exact h.active_eq hd hhd s hslot heq
      · obtain rfl := List.mem_singleton.mp hhd
        exact absurd heq (hother s.title (hothers.mpr (.inl ⟨s, hslot, rfl⟩)))
    · obtain rfl := List.mem_singleton.mp hslot
      rcases List.mem_append.mp hhd with hhd | hhd
      · exact absurd (hwrapper ▸ heq) (hhandle hd hhd)
      · obtain rfl := List.mem_singleton.mp hhd
        exact hphysical
  · change ((v.handles ++ [(slot.wrapper, slot.physical)]).map (·.1)).Nodup
    rw [List.map_append, List.nodup_append]
    refine ⟨h.once, List.nodup_singleton _, ?_⟩
    intro x hx y hy
    obtain ⟨hd, hhd, rfl⟩ := List.mem_map.mp hx
    obtain rfl := List.mem_singleton.mp hy
    exact (hhandle hd hhd).symm

/-- No transfer lets two handles use one connection. -/
theorem Holds.transfer (h : v.Holds) (hs : v.Separate) (ht : v.Transfer v') : v'.Holds := by
  cases ht with
  | same => exact h
  | @pick slot rest hslot =>
    refine h.of_slots rfl (le_refl _) ?_ ?_ fun _ hs => hs
    · exact fun s hs => .inl (hslot ▸ List.mem_cons_of_mem _ hs)
    · intro c hc
      rcases Multiset.mem_cons.mp hc with rfl | hc
      · exact .inl (hslot ▸ List.mem_cons_self)
      · exact .inr (.inl ⟨c, hc, rfl⟩)
  | fail | close | ask | answer =>
    exact ⟨h.handle_le, h.idle_ne, h.candidate_ne, h.active_eq, h.once⟩
  | connect hidle hroom hsound hwrapper hphysical =>
    refine h.of_slots rfl (Nat.le_succ _) (fun _ hs => .inl hs) ?_ fun _ hs => hs
    intro c hc
    rcases Multiset.mem_cons.mp hc with rfl | hc
    · exact .inr (.inr (hwrapper ▸ Nat.lt_succ_self _))
    · exact .inr (.inl ⟨c, hc, rfl⟩)
  | reclaim hidle hactive hwrapper hphysical =>
    refine h.of_slots rfl (Nat.le_succ _) (fun _ hs => .inl hs) ?_ ?_
    · intro c hc
      rcases Multiset.mem_cons.mp hc with rfl | hc
      · exact .inr (.inr (hwrapper ▸ Nat.lt_succ_self _))
      · exact .inr (.inl ⟨c, hc, rfl⟩)
    · exact fun s hs => hactive ▸ List.mem_cons_of_mem _ hs
  | pass hcandidates | failTest hcandidates | finish hcandidates =>
    exact h.of_slots rfl (le_refl _) (fun _ hs => .inl hs)
      (fun c hc => .inr (.inl (candidate_of_restage hcandidates c hc))) fun _ hs => hs
  | handOut hcandidates hwrapper hphysical => exact h.handOut hs hcandidates hwrapper hphysical
  | reject hcandidates =>
    refine h.of_slots rfl (le_refl _) (fun _ hs => .inl hs) ?_ fun _ hs => hs
    exact fun c hc => .inr (.inl ⟨c, hcandidates ▸ Multiset.mem_cons_of_mem hc, rfl⟩)
  | @keep slot slot' before after es hactive hroom hsound hwrapper hphysical hdone =>
    refine h.of_slots rfl (Nat.le_succ _) ?_ (fun c hc => .inr (.inl ⟨c, hc, rfl⟩)) ?_
    · intro s hs
      rcases List.mem_append.mp hs with hs | hs
      · exact .inl hs
      · obtain rfl := List.mem_singleton.mp hs
        exact .inr (hwrapper ▸ Nat.lt_succ_self _)
    · exact fun s hs => mem_of_active hactive hs
  | @discard slot before after es hactive habout hclosed =>
    exact h.of_slots rfl (le_refl _) (fun _ hs => .inl hs)
      (fun c hc => .inr (.inl ⟨c, hc, rfl⟩)) fun _ hs => mem_of_active hactive hs
  | tearDown maxActive maxIdle =>
    refine h.of_slots rfl (le_refl _) ?_ (fun c hc => .inr (.inl ⟨c, hc, rfl⟩)) ?_
    · exact fun s hs => absurd hs List.not_mem_nil
    · exact fun s hs => absurd hs List.not_mem_nil

theorem Holds.mem_live_iff (h : v.Holds) (hs : v.Separate) {hd : Nat × Physical}
    (hhd : hd ∈ v.handles) : hd.1 ∈ v.live ↔ ∃ slot ∈ v.active, slot.wrapper = hd.1 := by
  rw [hs.live_iff, Multiset.mem_map]
  constructor
  · rintro ⟨t, ht, heq⟩
    rcases mem_titles.mp ht with ⟨slot, hslot, rfl⟩ | ⟨slot, hslot, rfl⟩ | ⟨c, hc, rfl⟩
    · exact ⟨slot, hslot, heq⟩
    · exact absurd heq (h.idle_ne hd hhd slot hslot)
    · exact absurd heq (h.candidate_ne hd hhd c hc)
  · rintro ⟨slot, hslot, heq⟩
    exact ⟨slot.title, mem_titles.mpr (.inl ⟨slot, hslot, rfl⟩), heq⟩

/-- Handles that can use the same connection are the same. -/
theorem Holds.eq_of_connection (h : v.Holds) (hs : v.Separate) {hd hd' : Nat × Physical}
    (hhd : hd ∈ v.handles) (hhd' : hd' ∈ v.handles) (hlive : hd.1 ∈ v.live)
    (hlive' : hd'.1 ∈ v.live) (hconnection : hd.2.connection = hd'.2.connection) :
    hd.1 = hd'.1 := by
  obtain ⟨slot, hslot, heq⟩ := (h.mem_live_iff hs hhd).mp hlive
  obtain ⟨slot', hslot', heq'⟩ := (h.mem_live_iff hs hhd').mp hlive'
  have hphysical := h.active_eq hd hhd slot hslot heq
  have hphysical' := h.active_eq hd' hhd' slot' hslot' heq'
  -- The two slots have the same connection, and so the same title.
  have htitle : slot.title = slot'.title :=
    hs.title_eq (mem_titles.mpr (.inl ⟨slot, hslot, rfl⟩))
      (mem_titles.mpr (.inl ⟨slot', hslot', rfl⟩)) (by rw [hphysical, hphysical', hconnection])
  rw [← heq, ← heq']
  exact congrArg Prod.fst htitle

end Inventory

/-- A call through a handle that cannot use its connection does not reach it. -/
theorem Handle.perform_of_not_isValid {ω : Type} [Server ω] {h : Handle} {p : Pool}
    (hinvalid : h.isValid p = false) (call : Call) (w : ω) :
    (h.perform p call).run w = (.error .connectionClosed, w) := by
  unfold perform
  rw [if_neg (by simp [hinvalid])]
  rfl

namespace Scene

variable {ω : Type}

def slots (s : Scene ω) : List Slot :=
  s.pool.active ++ s.pool.idle ++ s.candidates.map (·.slot)

theorem titles_inventory (s : Scene ω) : s.inventory.titles = ↑(s.slots.map Slot.title) := by
  rw [slots, List.map_append, List.map_append, ← Multiset.coe_add, ← Multiset.coe_add, List.map_map]
  rfl

theorem nodup_handles {s : Scene ω} (h : s.inventory.Holds) :
    (s.handles.map (·.wrapper)).Nodup := by
  have honce : ((s.handles.map fun h => (h.wrapper, h.physical)).map (·.1)).Nodup := h.once
  rw [List.map_map] at honce
  exact honce

theorem holds_start (settings : ConnectionSettings) (config : PoolConfig) (server : ω) :
    (start settings config server).inventory.Holds := by
  refine ⟨?_, ?_, ?_, ?_, List.nodup_nil⟩
  · exact fun hd hhd => absurd hhd List.not_mem_nil
  · exact fun hd hhd => absurd hhd List.not_mem_nil
  · exact fun hd hhd => absurd hhd List.not_mem_nil
  · exact fun hd hhd => absurd hhd List.not_mem_nil

variable [Server ω] [Clock ω]

theorem holds_run (settings : ConnectionSettings) (config : PoolConfig) (server : ω)
    (events : List (Event ω)) :
    let s := (start settings config server).run events
    s.inventory.Separate ∧ s.inventory.Holds :=
  run_induction (I := fun v => v.Separate ∧ v.Holds) settings config server
    ⟨separate_start settings config server, holds_start settings config server⟩
    (fun _ _ h ht => ⟨h.1.transfer ht, h.2.transfer h.1 ht⟩) events

/-- A handle is valid exactly as long as its wrapper is in use. No two slots share a wrapper, a
physical connection or its number, so that no two valid handles share a connection. A call through
an invalid handle fails, whatever the server would answer, and does not reach the server. -/
theorem run_holders_exclusive (settings : ConnectionSettings) (config : PoolConfig) (server : ω)
    (events : List (Event ω)) :
    let s := (start settings config server).run events
    (∀ h ∈ s.handles,
      h.isValid s.pool = true ↔ ∃ slot ∈ s.pool.active, slot.wrapper = h.wrapper) ∧
    ((s.slots.map (·.wrapper)).Nodup ∧ (s.slots.map (·.physical.number)).Nodup ∧
      (s.slots.map (·.physical.connection)).Nodup) ∧
    ((s.handles.filter (·.isValid s.pool)).map (·.physical.connection)).Nodup ∧
    ∀ h ∈ s.handles, h.isValid s.pool = false → ∀ call ≠ Call.close,
      (h.perform s.pool call).run s.ledger = (.error .connectionClosed, s.ledger) := by
  intro s
  obtain ⟨hs, hh⟩ := holds_run settings config server events
  have hmem (h : Handle) (hhd : h ∈ s.handles) : (h.wrapper, h.physical) ∈ s.inventory.handles :=
    List.mem_map_of_mem hhd
  have hvalid (h : Handle) : h.isValid s.pool = true ↔ h.wrapper ∈ s.inventory.live :=
    List.contains_iff_mem
  refine ⟨?_, ⟨?_, ?_, ?_⟩, ?_, ?_⟩
  · intro h hhd
    rw [hvalid]
    exact hh.mem_live_iff hs (hmem h hhd)
  · have hnodup := hs.wrappers
    rw [titles_inventory, Multiset.map_coe, Multiset.coe_nodup, List.map_map] at hnodup
    exact hnodup
  · have hnodup := hs.numbers
    rw [titles_inventory, Multiset.map_coe, Multiset.coe_nodup, List.map_map] at hnodup
    exact hnodup
  · have hnodup := (Multiset.nodup_add.mp hs.places).1
    rw [titles_inventory, Multiset.map_coe, Multiset.coe_nodup, List.map_map] at hnodup
    exact hnodup
  · have honce := nodup_handles hh
    refine List.Nodup.map_on ?_ (honce.of_map.filter _)
    intro x hx y hy heq
    obtain ⟨hx, hxvalid⟩ := List.mem_filter.mp hx
    obtain ⟨hy, hyvalid⟩ := List.mem_filter.mp hy
    refine List.inj_on_of_nodup_map honce hx hy ?_
    exact hh.eq_of_connection hs (hmem x hx) (hmem y hy) ((hvalid x).mp hxvalid)
      ((hvalid y).mp hyvalid) heq
  · exact fun h hhd hinvalid call hcall => h.perform_of_not_isValid hinvalid call s.ledger

end Scene
end SqlMapper
