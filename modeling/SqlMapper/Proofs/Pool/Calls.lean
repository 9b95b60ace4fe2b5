import SqlMapper.Proofs.Pool.Holders

/-!
Where calls of holders may go on. Only a connection that was taken from its holder can have a call
of his left while it is a candidate, and only until it is rolled back.
-/

namespace SqlMapper

def Candidate.IsGuarded (calls : Multiset Ongoing) (c : Candidate) : Prop :=
  c.stage ≠ .tested false → ∀ o ∈ calls, o.connection = c.slot.physical.connection →
    ∃ left, c.stage = .testing (.rollsBack :: left)

namespace Inventory

/-- Every call that goes on is one of a handle, on the connection of the handle, and is not in the
way of anybody else. -/
structure Guarded (v : Inventory) : Prop where
  not_close : ∀ o ∈ v.calls, o.call ≠ .close
  handle : ∀ o ∈ v.calls, ∃ h ∈ v.handles, h.1 = o.wrapper ∧ h.2.connection = o.connection
  opened : ∀ o ∈ v.calls, o.connection < v.openings.length
  active : ∀ slot ∈ v.active, ∀ o ∈ v.calls,
    o.connection = slot.physical.connection → o.wrapper = slot.wrapper
  idle : ∀ slot ∈ v.idle, ∀ o ∈ v.calls, o.connection ≠ slot.physical.connection
  candidate : ∀ c ∈ v.candidates, c.IsGuarded v.calls

variable {v v' : Inventory}

/-- Without a new call, only the slots that change their places have to be looked at. -/
theorem Guarded.of_slots (h : v.Guarded) (hcalls : v'.calls = v.calls)
    (hhandles : v.handles ⊆ v'.handles) (hopenings : v.openings.length ≤ v'.openings.length)
    (hactive : ∀ slot ∈ v'.active, slot ∈ v.active ∨ ∀ o ∈ v.calls,
      o.connection = slot.physical.connection → o.wrapper = slot.wrapper)
    (hidle : ∀ slot ∈ v'.idle, slot ∈ v.idle ∨ ∀ o ∈ v.calls,
      o.connection ≠ slot.physical.connection)
    (hcandidate : ∀ c ∈ v'.candidates, c ∈ v.candidates ∨ c.IsGuarded v.calls) :
    v'.Guarded where
  not_close := by
    rw [hcalls]
    exact h.not_close
  handle := by
    rw [hcalls]
    intro o ho
    obtain ⟨hd, hhd, heq⟩ := h.handle o ho
    exact ⟨hd, hhandles hhd, heq⟩
  opened := by
    rw [hcalls]
    exact fun o ho => lt_of_lt_of_le (h.opened o ho) hopenings
  active := by
    rw [hcalls]
    intro slot hslot
    rcases hactive slot hslot with hold | hnew
    · exact h.active slot hold
    · exact hnew
  idle := by
    rw [hcalls]
    intro slot hslot
    rcases hidle slot hslot with hold | hnew
    · exact h.idle slot hold
    · exact hnew
  candidate := by
    rw [hcalls]
    intro c hc
    rcases hcandidate c hc with hold | hnew
    · exact h.candidate c hold
    · exact hnew

theorem candidate_cons {c d : Candidate} {cs rest : Multiset Candidate} {P : Candidate → Prop}
    (hrest : rest ⊆ cs) (hd : P d) (hc : c ∈ d ::ₘ rest) : c ∈ cs ∨ P c := by
  rcases Multiset.mem_cons.mp hc with rfl | hc
  · exact .inr hd
  · exact .inl (hrest hc)

theorem Guarded.pass (h : v.Guarded) {slot : Slot} {generation : Nat} {test : Slot.Test}
    {left : List Slot.Test} {rest : Multiset Candidate}
    (hcandidates : v.candidates = ⟨slot, generation, .testing (test :: left)⟩ ::ₘ rest)
    (hfree : test ≠ .live → ∀ o ∈ v.calls, o.connection ≠ slot.physical.connection) :
    (⟨slot, generation, .testing left⟩ : Candidate).IsGuarded v.calls := by
  intro _ o ho heq
  have hmem : (⟨slot, generation, .testing (test :: left)⟩ : Candidate) ∈ v.candidates :=
    hcandidates ▸ Multiset.mem_cons_self _ _
  -- With a call going on, the test is the rollback; but that one waits for the call.
  obtain ⟨left', hstage⟩ := h.candidate _ hmem (by simp) o ho heq
  obtain ⟨rfl, rfl⟩ := List.cons.inj (Stage.testing.inj hstage)
  exact absurd heq (hfree (by simp) o ho)

theorem Guarded.ne_of_passed (h : v.Guarded) {c : Candidate} (hc : c ∈ v.candidates)
    (hstage : c.stage = .testing [] ∨ c.stage = .tested true) :
    ∀ o ∈ v.calls, o.connection ≠ c.slot.physical.connection := by
  intro o ho heq
  have hgood : c.stage ≠ .tested false := by
    rcases hstage with hstage | hstage <;> simp [hstage]
  obtain ⟨left, hleft⟩ := h.candidate c hc hgood o ho heq
  rcases hstage with hstage | hstage <;> simp [hstage] at hleft

theorem Guarded.ask (h : v.Guarded) (hs : v.Separate) (hh : v.Holds) {wrapper : Nat}
    {physical : Physical} {call : Call} (hhandle : (wrapper, physical) ∈ v.handles)
    (hlive : wrapper ∈ v.live) (hcall : call ≠ .close) :
    Guarded { v with calls := ⟨wrapper, physical.connection, call⟩ ::ₘ v.calls } := by
  obtain ⟨slot, hslot, hwrapper⟩ := (hh.mem_live_iff hs hhandle).mp hlive
  have hphysical : slot.physical = physical := hh.active_eq _ hhandle slot hslot hwrapper
  have htitle : slot.title ∈ v.titles := mem_titles.mpr (.inl ⟨slot, hslot, rfl⟩)
  -- Whoever has the connection has the wrapper as well.
  have hsame (slot' : Slot) (hslot' : slot'.title ∈ v.titles)
      (heq : physical.connection = slot'.physical.connection) : slot'.wrapper = wrapper := by
    have htitle' := hs.title_eq htitle hslot' (by rw [hphysical, heq])
    exact (congrArg Prod.fst htitle').symm.trans hwrapper
  refine ⟨?_, ?_, ?_, ?_, ?_, ?_⟩
  · intro o ho
    rcases Multiset.mem_cons.mp ho with rfl | ho
    · exact hcall
    · exact h.not_close o ho
  · intro o ho
    rcases Multiset.mem_cons.mp ho with rfl | ho
    · exact ⟨_, hhandle, rfl, rfl⟩
    · exact h.handle o ho
  · intro o ho
    rcases Multiset.mem_cons.mp ho with rfl | ho
    · refine hs.place_lt _ (Multiset.mem_add.mpr (.inl (Multiset.mem_map.mpr ?_)))
      exact ⟨slot.title, htitle, by rw [← hphysical]; rfl⟩
    · exact h.opened o ho
  · intro slot' hslot' o ho heq
    rcases Multiset.mem_cons.mp ho with rfl | ho
    · exact (hsame slot' (mem_titles.mpr (.inl ⟨slot', hslot', rfl⟩)) heq).symm
    · exact h.active slot' hslot' o ho heq
  · intro slot' hslot' o ho heq
    rcases Multiset.mem_cons.mp ho with rfl | ho
    · have := hsame slot' (mem_titles.mpr (.inr (.inl ⟨slot', hslot', rfl⟩))) heq
      exact hh.idle_ne _ hhandle slot' hslot' this
    · exact h.idle slot' hslot' o ho heq
  · intro c hc hstage o ho heq
    rcases Multiset.mem_cons.mp ho with rfl | ho
    · have := hsame c.slot (mem_titles.mpr (.inr (.inr ⟨c, hc, rfl⟩))) heq
      exact absurd this (hh.candidate_ne _ hhandle c hc)
    · exact h.candidate c hc hstage o ho heq

/-- No transfer leaves a call where none may go on. -/
theorem Guarded.transfer (h : v.Guarded) (hs : v.Separate) (hh : v.Holds)
    (ht : v.Transfer v') : v'.Guarded := by
  have hhandles : v.handles ⊆ v'.handles := ht.handles_grow.subset
  have hopenings : v.openings.length ≤ v'.openings.length := ht.openings_grow.length_le
  cases ht with
  | same => exact h
  | @pick slot rest hidle =>
    refine h.of_slots rfl hhandles hopenings (fun _ hs => .inl hs) ?_ ?_
    · exact fun s hs => .inl (hidle ▸ List.mem_cons_of_mem _ hs)
    · refine fun c => candidate_cons (Multiset.Subset.refl _) ?_
      exact fun _ o ho heq => absurd heq (h.idle slot (hidle ▸ List.mem_cons_self) o ho)
  | fail | close =>
    exact h.of_slots rfl hhandles hopenings (fun _ hs => .inl hs) (fun _ hs => .inl hs)
      fun _ hc => .inl hc
  | @connect opening es slot hidle hroom hsound hwrapper hphysical =>
    refine h.of_slots rfl hhandles hopenings (fun _ hs => .inl hs) (fun _ hs => .inl hs) ?_
    refine fun c => candidate_cons (Multiset.Subset.refl _) ?_
    -- Nobody can have a call on a connection that was not there before.
    intro _ o ho heq
    have hlt := h.opened o ho
    rw [heq, hphysical] at hlt
    exact absurd hlt (Nat.lt_irrefl _)
  | @reclaim slot slot' rest hidle hactive hwrapper hphysical =>
    refine h.of_slots rfl hhandles hopenings ?_ (fun _ hs => .inl hs) ?_
    · exact fun s hs => .inl (hactive ▸ List.mem_cons_of_mem _ hs)
    · refine fun c => candidate_cons (Multiset.Subset.refl _) ?_
      -- The tests of a candidate that was reclaimed begin with the rollback.
      exact fun _ o ho heq => ⟨_, rfl⟩
  | pass hcandidates hpassed hfree =>
    refine h.of_slots rfl hhandles hopenings (fun _ hs => .inl hs) (fun _ hs => .inl hs) ?_
    refine fun c => candidate_cons ?_ (h.pass hcandidates hfree)
    exact hcandidates ▸ Multiset.subset_cons _ _
  | failTest hcandidates habout =>
    refine h.of_slots rfl hhandles hopenings (fun _ hs => .inl hs) (fun _ hs => .inl hs) ?_
    refine fun c => candidate_cons ?_ ?_
    · exact hcandidates ▸ Multiset.subset_cons _ _
    · exact fun hstage => absurd rfl hstage
  | finish hcandidates =>
    refine h.of_slots rfl hhandles hopenings (fun _ hs => .inl hs) (fun _ hs => .inl hs) ?_
    refine fun c => candidate_cons ?_ ?_
    · exact hcandidates ▸ Multiset.subset_cons _ _
    · have hmem := hcandidates ▸ Multiset.mem_cons_self _ _
      exact fun _ o ho heq => absurd heq (h.ne_of_passed hmem (.inl rfl) o ho)
  | @handOut slot slot' rest hcandidates hwrapper hphysical =>
    have hmem := hcandidates ▸ Multiset.mem_cons_self _ _
    refine h.of_slots rfl hhandles hopenings ?_ (fun _ hs => .inl hs) ?_
    · intro s hs
      rcases List.mem_append.mp hs with hs | hs
      · exact .inl hs
      · obtain rfl := List.mem_singleton.mp hs
        rw [hphysical]
        exact .inr fun o ho heq => absurd heq (h.ne_of_passed hmem (.inr rfl) o ho)
    · exact fun c hc => .inl (hcandidates ▸ Multiset.mem_cons_of_mem hc)
  | reject hcandidates =>
    refine h.of_slots rfl hhandles hopenings (fun _ hs => .inl hs) (fun _ hs => .inl hs) ?_
    exact fun c hc => .inl (hcandidates ▸ Multiset.mem_cons_of_mem hc)
  | @keep slot slot' before after es hactive hroom hsound hwrapper hphysical hdone =>
    have hmem : slot ∈ v.active := hactive ▸ List.mem_append_right _ List.mem_cons_self
    refine h.of_slots rfl hhandles hopenings ?_ ?_ (fun _ hc => .inl hc)
    · exact fun s hs => .inl (mem_of_active hactive hs)
    · intro s hs
      rcases List.mem_append.mp hs with hs | hs
      · exact .inl hs
      · obtain rfl := List.mem_singleton.mp hs
        rw [hphysical]
        -- The calls on it would be of its holder, who has none left.
        exact .inr fun o ho heq => hdone o ho (h.active slot hmem o ho heq)
  | discard hactive habout hclosed =>
    refine h.of_slots rfl hhandles hopenings ?_ (fun _ hs => .inl hs) (fun _ hc => .inl hc)
    exact fun s hs => .inl (mem_of_active hactive hs)
  | tearDown maxActive maxIdle =>
    refine h.of_slots rfl hhandles hopenings ?_ ?_ (fun _ hc => .inl hc)
    · exact fun s hs => absurd hs List.not_mem_nil
    · exact fun s hs => absurd hs List.not_mem_nil
  | ask hhandle hlive hcall => exact h.ask hs hh hhandle hlive hcall
  | answer hcalls =>
    have hsub : ∀ o ∈ _, o ∈ v.calls := fun o ho => hcalls ▸ Multiset.mem_cons_of_mem ho
    refine ⟨?_, ?_, ?_, ?_, ?_, ?_⟩
    · exact fun o ho => h.not_close o (hsub o ho)
    · exact fun o ho => h.handle o (hsub o ho)
    · exact fun o ho => h.opened o (hsub o ho)
    · exact fun slot hslot o ho => h.active slot hslot o (hsub o ho)
    · exact fun slot hslot o ho => h.idle slot hslot o (hsub o ho)
    · exact fun c hc hstage o ho => h.candidate c hc hstage o (hsub o ho)

end Inventory

namespace Scene

theorem guarded_start {ω : Type} (settings : ConnectionSettings) (config : PoolConfig)
    (server : ω) : (start settings config server).inventory.Guarded := by
  refine ⟨?_, ?_, ?_, ?_, ?_, ?_⟩
  · exact fun o ho => absurd ho (Multiset.notMem_zero o)
  · exact fun o ho => absurd ho (Multiset.notMem_zero o)
  · exact fun o ho => absurd ho (Multiset.notMem_zero o)
  · exact fun slot hslot => absurd hslot List.not_mem_nil
  · exact fun slot hslot => absurd hslot List.not_mem_nil
  · exact fun c hc => absurd hc (Multiset.notMem_zero c)

end Scene
end SqlMapper
