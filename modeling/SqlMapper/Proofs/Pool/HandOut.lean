import SqlMapper.Proofs.Pool.Fairness

/-!
What is handed out is clean. A candidate is settled once it was rolled back, or found to commit by
itself, and whoever held the connection before can do nothing with it any more.
-/

namespace SqlMapper

open Ledger

def Stage.IsSettled : Stage → Prop
  | .testing left => .rollsBack ∉ left
  | .tested good => good = true

def Ledger.callsOf (wrapper : Nat) (entries : List Entry) : List Entry :=
  entries.filter (·.caller == some wrapper)

namespace Inventory

/-- On the connection of a settled candidate, every statement that ran is undone or committed. -/
def IsSettled (v : Inventory) : Prop :=
  ∀ c ∈ v.candidates, c.stage.IsSettled → IsClean c.slot.physical.connection v.entries

variable {v v' : Inventory}

theorem isClean_other {n : Nat} {es entries : List Entry} (h : IsClean n entries)
    (hes : ∀ e ∈ es, e.connection ≠ n) : IsClean n (es ++ entries) :=
  isClean_append (isClean_of_quiet fun e he heq => absurd heq (hes e he)) h

theorem IsSettled.write (h : v.IsSettled) {m : Nat} {es : List Entry} (habout : IsAbout m es)
    (hentries : v'.entries = es ++ v.entries)
    (hcandidates : ∀ c ∈ v'.candidates, c.stage.IsSettled →
      c ∈ v.candidates ∧ c.slot.physical.connection ≠ m) : v'.IsSettled := by
  intro c hc hstage
  obtain ⟨hold, hne⟩ := hcandidates c hc hstage
  rw [hentries]
  refine isClean_other (h c hold hstage) ?_
  exact fun e he heq => hne (heq.symm.trans (habout e he).2)

theorem Stage.IsSettled.ne {stage : Stage} (h : stage.IsSettled) : stage ≠ .tested false := by
  rintro rfl
  exact absurd h (by simp [Stage.IsSettled])

theorem Separate.ne_of_rest (hs : v.Separate) {d : Candidate} {rest : Multiset Candidate}
    (hcandidates : v.candidates = d ::ₘ rest) {c : Candidate} (hc : c ∈ rest)
    (hstage : c.stage.IsSettled) : c.slot.physical.connection ≠ d.slot.physical.connection := by
  have hfit : IsFit { v with candidates := rest } c.slot.physical.connection :=
    isFit_of_candidate hc (Stage.IsSettled.ne hstage)
  have htitles := titles_of_candidates hcandidates
  exact hs.ne_of_isFit htitles hfit

theorem Separate.ne_of_active (hs : v.Separate) {slot : Slot} {before after : List Slot}
    (hactive : v.active = before ++ slot :: after) {c : Candidate} (hc : c ∈ v.candidates)
    (hstage : c.stage.IsSettled) : c.slot.physical.connection ≠ slot.physical.connection := by
  have hfit : IsFit { v with active := before ++ after } c.slot.physical.connection :=
    isFit_of_candidate hc (Stage.IsSettled.ne hstage)
  have htitles := titles_of_active before after hactive
  exact hs.ne_of_isFit htitles hfit

theorem IsSettled.pass (h : v.IsSettled) (hs : v.Separate) {slot : Slot} {generation : Nat}
    {test : Slot.Test} {left : List Slot.Test} {rest : Multiset Candidate} {es : List Entry}
    (hcandidates : v.candidates = ⟨slot, generation, .testing (test :: left)⟩ ::ₘ rest)
    (hpassed : slot.Passed test es) :
    IsSettled { v with
      candidates := ⟨slot, generation, .testing left⟩ ::ₘ rest
      entries := es ++ v.entries } := by
  intro c hc hstage
  rcases Multiset.mem_cons.mp hc with rfl | hc
  -- Only the rollback settles what was not settled before, and it ends with the entry that does.
  · by_cases htest : test = .rollsBack
    · exact isClean_of_endsSettled hpassed.sound.about (hpassed.settled htest)
    · have hmem : (⟨slot, generation, .testing (test :: left)⟩ : Candidate) ∈ v.candidates :=
        hcandidates ▸ Multiset.mem_cons_self _ _
      have hsettled : Stage.IsSettled (.testing (test :: left)) := by
        intro hrolls
        rcases List.mem_cons.mp hrolls with heq | hleft
        · exact htest heq.symm
        · exact hstage hleft
      have hclean := h _ hmem hsettled
      exact isClean_append hpassed.sound.clean hclean
  · refine isClean_other (h c (hcandidates ▸ Multiset.mem_cons_of_mem hc) hstage) ?_
    intro e he heq
    exact hs.ne_of_rest hcandidates hc hstage (heq.symm.trans (hpassed.sound.about e he).2)

/-- No transfer leaves a settled candidate with a statement that is neither undone nor committed. -/
theorem IsSettled.transfer (h : v.IsSettled) (hs : v.Separate) (hg : v.Guarded)
    (ht : v.Transfer v') : v'.IsSettled := by
  cases ht with
  | same => exact h
  | pick hidle =>
    -- A candidate that was just chosen is still to be rolled back, however it was found.
    intro c hc hstage
    rcases Multiset.mem_cons.mp hc with rfl | hc
    · exact absurd hstage (by simp [Stage.IsSettled, Slot.tests])
    · exact h c hc hstage
  | fail habout hclosed =>
    refine h.write habout rfl fun c hc hstage => ⟨hc, ?_⟩
    have hfit := isFit_of_candidate hc (Stage.IsSettled.ne hstage)
    exact Nat.ne_of_lt (IsFit.lt hs hfit)
  | connect hidle hroom hsound hwrapper hphysical =>
    refine h.write hsound.about rfl fun c hc hstage => ?_
    rcases Multiset.mem_cons.mp hc with rfl | hc
    · exact absurd hstage (by simp [Stage.IsSettled, Slot.tests])
    · have hfit := isFit_of_candidate hc (Stage.IsSettled.ne hstage)
      exact ⟨hc, Nat.ne_of_lt (IsFit.lt hs hfit)⟩
  | reclaim hidle hactive hwrapper hphysical =>
    intro c hc hstage
    rcases Multiset.mem_cons.mp hc with rfl | hc
    · exact absurd hstage (by simp [Stage.IsSettled, Slot.tests])
    · exact h c hc hstage
  | pass hcandidates hpassed hfree => exact h.pass hs hcandidates hpassed
  | failTest hcandidates habout =>
    refine h.write habout rfl fun c hc hstage => ?_
    rcases Multiset.mem_cons.mp hc with rfl | hc
    · exact absurd hstage (by simp [Stage.IsSettled])
    · exact ⟨hcandidates ▸ Multiset.mem_cons_of_mem hc, hs.ne_of_rest hcandidates hc hstage⟩
  | @finish slot generation rest hcandidates =>
    intro c hc hstage
    rcases Multiset.mem_cons.mp hc with rfl | hc
    · have hmem : (⟨slot, generation, .testing []⟩ : Candidate) ∈ v.candidates :=
        hcandidates ▸ Multiset.mem_cons_self _ _
      -- With no test left, the rollback was passed already.
      have hclean := h _ hmem List.not_mem_nil
      exact hclean
    · exact h c (hcandidates ▸ Multiset.mem_cons_of_mem hc) hstage
  | handOut hcandidates hwrapper hphysical =>
    exact fun c hc => h c (hcandidates ▸ Multiset.mem_cons_of_mem hc)
  | reject hcandidates => exact fun c hc => h c (hcandidates ▸ Multiset.mem_cons_of_mem hc)
  | close hcondemned habout hclosed =>
    refine h.write habout rfl fun c hc hstage => ⟨hc, ?_⟩
    have hfit := isFit_of_candidate hc (Stage.IsSettled.ne hstage)
    exact hs.ne_of_condemned (hcondemned ▸ Multiset.mem_cons_self _ _) hfit
  | keep hactive hroom hsound hwrapper hphysical hdone =>
    exact h.write hsound.about rfl fun c hc hstage => ⟨hc, hs.ne_of_active hactive hc hstage⟩
  | discard hactive habout hclosed =>
    exact h.write habout rfl fun c hc hstage => ⟨hc, hs.ne_of_active hactive hc hstage⟩
  | tearDown maxActive maxIdle => exact h
  | ask hhandle hlive hcall => exact h
  | @answer o rest reply hcalls =>
    intro c hc hstage
    have hmem : o ∈ v.calls := hcalls ▸ Multiset.mem_cons_self _ _
    -- A call of an earlier holder ends before the candidate is rolled back.
    have hne : o.connection ≠ c.slot.physical.connection := by
      intro heq
      obtain ⟨left, hleft⟩ := hg.candidate c hc (Stage.IsSettled.ne hstage) o hmem heq
      rw [hleft] at hstage
      exact hstage List.mem_cons_self
    let e : Entry := ⟨some o.wrapper, o.connection, o.call, reply⟩
    have hother : ∀ x ∈ [e], x.connection ≠ c.slot.physical.connection := by
      intro x hx
      rw [List.mem_singleton.mp hx]
      exact hne
    exact isClean_other (h c hc hstage) hother

/-- The only transfer that adds a handle hands out a settled candidate. -/
theorem Transfer.handOut_of_handles (ht : v.Transfer v') {hd : Nat × Physical}
    (hhandles : v'.handles = v.handles ++ [hd]) :
    (∃ c ∈ v.candidates, c.stage = .tested true ∧ c.slot.title = hd) ∧
      v'.entries = v.entries ∧ ∃ slot ∈ v'.active, slot.title = hd := by
  cases ht with
  | @handOut slot slot' rest hcandidates hwrapper hphysical =>
    obtain rfl : slot.title = hd := List.singleton_inj.mp (List.append_cancel_left hhandles)
    refine ⟨⟨_, hcandidates ▸ Multiset.mem_cons_self _ _, rfl, rfl⟩, rfl, slot', ?_, ?_⟩
    · exact List.mem_append_right _ (List.mem_singleton_self _)
    · rw [Slot.title, hwrapper, hphysical]
      rfl
  -- No other transfer changes the handles.
  | _ => exact absurd hhandles (by simp)

structure IsOver (v : Inventory) (wrapper : Nat) : Prop where
  old : wrapper ≤ v.wrappers
  dead : wrapper ∉ v.live
  quiet : ∀ o ∈ v.calls, o.wrapper ≠ wrapper

/-- While one holder has a connection, the wrapper of every other one that had it is over. -/
theorem Orderly.isOver (h : v.Orderly) {hd hd' : Nat × Physical} (hhd : hd ∈ v.handles)
    (hhd' : hd' ∈ v.handles) (hne : hd.1 ≠ hd'.1)
    (hconnection : hd.2.connection = hd'.2.connection) {slot : Slot} (hslot : slot ∈ v.active)
    (htitle : slot.title = hd') : v.IsOver hd.1 where
  old := h.holds.handle_le hd hhd
  dead := by
    intro hlive
    have hlive' : hd'.1 ∈ v.live :=
      (h.holds.mem_live_iff h.separate hhd').mpr ⟨slot, hslot, congrArg Prod.fst htitle⟩
    exact hne (h.holds.eq_of_connection h.separate hhd hhd' hlive hlive' hconnection)
  quiet := by
    intro o ho heq
    -- The call is one of the earlier holder, so it is on the connection that the slot has.
    obtain ⟨hd₀, hhd₀, hwrapper, hon⟩ := h.guarded.handle o ho
    obtain rfl : hd₀ = hd :=
      List.inj_on_of_nodup_map h.holds.once hhd₀ hhd (hwrapper.trans heq)
    have hsame : o.connection = slot.physical.connection := by
      rw [← hon, hconnection, ← htitle]
      rfl
    have hholder := h.guarded.active slot hslot o ho hsame
    exact hne (heq.symm.trans (hholder.trans (congrArg Prod.fst htitle)))

theorem IsOver.live {wrapper : Nat} (h : v.IsOver wrapper) (ht : v.Transfer v') :
    wrapper ≤ v'.wrappers ∧ wrapper ∉ v'.live := by
  cases ht.retitling with
  | opened htitles hplaces hlive hwrappers hphysicals hopenings =>
    rw [hwrappers, hlive, List.mem_cons, not_or]
    exact ⟨Nat.le_succ_of_le h.old, Nat.ne_of_lt (Nat.lt_succ_of_le h.old), h.dead⟩
  | renewed hbefore htitles hplaces hlive hwrappers hphysicals hopenings =>
    rw [hwrappers, hlive, List.mem_cons, not_or]
    refine ⟨Nat.le_succ_of_le h.old, Nat.ne_of_lt (Nat.lt_succ_of_le h.old), ?_⟩
    exact fun hmem => h.dead (List.mem_filter.mp hmem).1
  | removed gone htitles hplaces hlive hwrappers hphysicals hopenings hnew =>
    rw [hwrappers, hlive]
    exact ⟨h.old, fun hmem => h.dead (List.mem_filter.mp hmem).1⟩

/-- A handle that can do nothing any more writes nothing and stays so. -/
theorem IsOver.transfer {wrapper : Nat} (h : v.IsOver wrapper) (ht : v.Transfer v') :
    v'.IsOver wrapper ∧ callsOf wrapper v'.entries = callsOf wrapper v.entries := by
  obtain ⟨hold, hdead⟩ := h.live ht
  refine ⟨⟨hold, hdead, ?_⟩, ?_⟩
  · intro o ho heq
    rcases ht.calls o ho with hbefore | hlive
    · exact h.quiet o hbefore heq
    · exact h.dead (heq ▸ hlive)
  -- What a transfer writes is of the pool, or answers a call, and the wrapper has none.
  · rcases ht.writes with ⟨n, es, hentries, habout⟩ | ⟨o, ho, reply, hentries⟩
    · have hnone : callsOf wrapper es = [] := by
        rw [callsOf, List.filter_eq_nil_iff]
        intro e he
        simp [(habout e he).1]
      rw [hentries, callsOf, List.filter_append, ← callsOf, hnone, List.nil_append, callsOf]
    · rw [hentries, callsOf, List.filter_cons_of_neg, callsOf]
      simpa using h.quiet o ho

end Inventory

namespace Scene

variable {ω : Type} [Server ω] [Clock ω]

theorem settled_run (settings : ConnectionSettings) (config : PoolConfig) (server : ω)
    (events : List (Event ω)) :
    let s := (start settings config server).run events
    s.inventory.Orderly ∧ s.inventory.IsSettled :=
  run_induction (I := fun v => v.Orderly ∧ v.IsSettled) settings config server
    ⟨orderly_start settings config server, fun c hc => absurd hc (Multiset.notMem_zero c)⟩
    (fun _ _ h ht => ⟨h.1.transfer ht, h.2.transfer h.1.separate h.1.guarded ht⟩) events

/-- Whatever happens later, no call is made through a wrapper that is over. -/
theorem run_callsOf {s : Scene ω} {wrapper : Nat} (h : s.inventory.IsOver wrapper)
    (events : List (Event ω)) :
    callsOf wrapper (s.run events).ledger.entries = callsOf wrapper s.ledger.entries := by
  unfold run
  -- On the later events: that the wrapper is over is preserved by each of them.
  induction events generalizing s with
  | nil => rfl
  | cons e events ih =>
    obtain ⟨hover, hcalls⟩ := h.transfer (s.transfer_step e)
    exact (ih hover).trans hcalls

/-- A connection is handed out clean. After every statement that ran on it, of an earlier holder or
of a test, the pool found that it commits by itself or rolled it back; no such call of the pool has
ever failed on it; and every earlier holder has lost it, and makes no further call, whatever happens
later. -/
theorem run_hands_out_clean (settings : ConnectionSettings) (config : PoolConfig) (server : ω)
    (events : List (Event ω)) (e : Event ω) (h : Handle) :
    let s := (start settings config server).run events
    (s.step e).handles = s.handles ++ [h] →
      IsClean h.physical.connection (s.step e).ledger.entries ∧
      IsFairAt h.physical.connection (s.step e).ledger.entries ∧
      ∀ g ∈ s.handles, g.physical.connection = h.physical.connection →
        g.isValid (s.step e).pool = false ∧
        ∀ later, callsOf g.wrapper ((s.step e).run later).ledger.entries =
          callsOf g.wrapper (s.step e).ledger.entries := by
  intro s hnew
  obtain ⟨horderly, hsettled⟩ := settled_run settings config server events
  have ht : s.inventory.Transfer (s.step e).inventory := s.transfer_step e
  have horderly' := horderly.transfer ht
  have hhandles : (s.step e).inventory.handles =
      s.inventory.handles ++ [(h.wrapper, h.physical)] := by
    change (s.step e).handles.map _ = _
    rw [hnew, List.map_append]
    rfl
  obtain ⟨⟨c, hc, hstage, htitle⟩, hentries, slot, hslot, htitle'⟩ :=
    ht.handOut_of_handles hhandles
  have hphysical : c.slot.physical = h.physical := congrArg Prod.snd htitle
  have hphysical' : slot.physical = h.physical := congrArg Prod.snd htitle'
  have hwritten : (s.step e).ledger.entries = s.ledger.entries := hentries
  refine ⟨?_, ?_, ?_⟩
  · rw [hwritten, ← hphysical]
    refine hsettled c hc ?_
    rw [hstage]
    rfl
  · rw [← hphysical']
    exact horderly'.fair.fit _ (Inventory.has_of_active hslot)
  · intro g hg hconnection
    have hmem : (g.wrapper, g.physical) ∈ s.inventory.handles := List.mem_map_of_mem hg
    -- No wrapper is handed out twice, so the earlier holder has another one.
    have hne : g.wrapper ≠ h.wrapper := by
      have honce := horderly'.holds.once
      rw [hhandles, List.map_append, List.nodup_append] at honce
      exact honce.2.2 _ (List.mem_map_of_mem hmem) _ (List.mem_singleton_self _)
    have hg' : (g.wrapper, g.physical) ∈ (s.step e).inventory.handles :=
      hhandles ▸ List.mem_append_left _ hmem
    have hh' : (h.wrapper, h.physical) ∈ (s.step e).inventory.handles :=
      hhandles ▸ List.mem_append_right _ (List.mem_singleton_self _)
    have hover := horderly'.isOver hg' hh' hne hconnection hslot htitle'
    refine ⟨?_, run_callsOf hover⟩
    rw [Handle.isValid, Pool.isLive, Bool.eq_false_iff]
    exact fun hlive => hover.dead (List.contains_iff_mem.mp hlive)

/-- The connection of a holder is wanted by somebody else, who has to wait for the statement that
the holder runs. -/
def reclaiming : List (Event Willing) :=
  acquiring ++ [.ask 0 (.execute "DELETE"), .acquire none none, .proceed 0, .answer 0] ++
    List.replicate 4 (.proceed 0)

/-- A connection that was taken from its holder after a statement is handed out. -/
theorem hands_out_reclaimed :
    let h : Handle := ⟨2, ⟨1, 0⟩, ⟨1⟩, ⟨13⟩, ⟨13⟩, "nullnull", false⟩
    let s := narrow.run reclaiming
    (s.step (.proceed 0)).handles = s.handles ++ [h] ∧
      IsClean 0 (s.step (.proceed 0)).ledger.entries := by
  intro h s
  have hnew : (s.step (.proceed 0)).handles = s.handles ++ [h] := by decide
  exact ⟨hnew, (run_hands_out_clean _ _ _ reclaiming (.proceed 0) h hnew).1⟩

end Scene
end SqlMapper
