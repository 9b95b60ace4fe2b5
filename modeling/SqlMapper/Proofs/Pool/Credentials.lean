import SqlMapper.Proofs.Pool.Capacity
import SqlMapper.Proofs.Pool.Fairness

/-!
The credentials with which a connection was opened that is handed out. A new connection has those
that were asked for; what is idle, or was taken from its holder, goes to whoever comes next.
-/

namespace SqlMapper

open Ledger

variable {ω : Type}

def Ledger.IsOpenedFor (settings : ConnectionSettings) (username password : Option String)
    (n : Nat) (openings : List Opening) : Prop :=
  ∃ o, openings[n]? = some o ∧ o.url = settings.url ∧
    o.properties = settings.connectProperties username password

theorem Ledger.IsOpenedFor.of_grow {settings : ConnectionSettings}
    {username password : Option String} {n : Nat} {openings openings' : List Opening}
    (h : IsOpenedFor settings username password n openings) (hgrow : openings <+: openings') :
    IsOpenedFor settings username password n openings' := by
  obtain ⟨o, hget, hopened⟩ := h
  obtain ⟨more, rfl⟩ := hgrow
  obtain ⟨hn, -⟩ := List.getElem?_eq_some_iff.mp hget
  exact ⟨o, (List.getElem?_append_left hn).trans hget, hopened⟩

namespace Inventory

def IsKnown (v : Inventory) (physical : Physical) : Prop := physical ∈ v.handles.map (·.2)

variable {v v' : Inventory}

theorem IsKnown.transfer {physical : Physical} (h : v.IsKnown physical) (ht : v.Transfer v') :
    v'.IsKnown physical :=
  (ht.handles_grow.map _).subset h

-- Nothing gets into use without being handed out, and nothing becomes idle without coming back.
theorem forall_isKnown_transfer (h : ∀ slot ∈ v.active ++ v.idle, v.IsKnown slot.physical)
    (ht : v.Transfer v') : ∀ slot ∈ v'.active ++ v'.idle, v'.IsKnown slot.physical := by
  have hactive : ∀ slot ∈ v.active, v'.IsKnown slot.physical := fun slot hslot =>
    (h slot (List.mem_append_left _ hslot)).transfer ht
  have hidle : ∀ slot ∈ v.idle, v'.IsKnown slot.physical := fun slot hslot =>
    (h slot (List.mem_append_right _ hslot)).transfer ht
  have hboth (active idle : List Slot) (h₁ : ∀ slot ∈ active, v'.IsKnown slot.physical)
      (h₂ : ∀ slot ∈ idle, v'.IsKnown slot.physical) :
      ∀ slot ∈ active ++ idle, v'.IsKnown slot.physical := by
    intro slot hslot
    exact (List.mem_append.mp hslot).elim (h₁ slot) (h₂ slot)
  cases ht with
  | pick hslot =>
    exact hboth _ _ hactive fun slot hmem => hidle slot (hslot ▸ List.mem_cons_of_mem _ hmem)
  | reclaim hnone hslot =>
    exact hboth _ _ (fun slot hmem => hactive slot (hslot ▸ List.mem_cons_of_mem _ hmem)) hidle
  | @handOut slot slot' rest hcandidates hwrapper hphysical =>
    refine hboth _ _ ?_ hidle
    intro s hs
    rcases List.mem_append.mp hs with hs | hs
    · exact hactive s hs
    · have hnew : (slot.wrapper, slot.physical) ∈ v.handles ++ [(slot.wrapper, slot.physical)] :=
        List.mem_append_right _ (List.mem_singleton_self _)
      rw [List.mem_singleton.mp hs, hphysical]
      exact List.mem_map_of_mem hnew
  | @keep slot slot' before after es hslot hroom hsound hwrapper hphysical hdone =>
    have hmem : slot ∈ v.active := hslot ▸ List.mem_append_right _ List.mem_cons_self
    refine hboth _ _ (fun s hs => hactive s (mem_of_active hslot hs)) ?_
    intro s hs
    rcases List.mem_append.mp hs with hs | hs
    · exact hidle s hs
    · rw [List.mem_singleton.mp hs, hphysical]
      exact hactive slot hmem
  | discard hslot => exact hboth _ _ (fun s hs => hactive s (mem_of_active hslot hs)) hidle
  | tearDown => exact fun slot hslot => absurd hslot List.not_mem_nil
  | _ => exact hboth _ _ hactive hidle

end Inventory

structure Acquisition.Advances (a a' : Acquisition) (p p' : Pool) (l' : Ledger ω) : Prop where
  username : a'.username = a.username
  password : a'.password = a.password
  settings : p'.settings = p.settings
  generation : p'.generation = p.generation
  candidate : ∀ c ∈ a'.candidate?,
    (∃ d ∈ a.candidate?, d.generation = c.generation ∧ d.slot.physical = c.slot.physical) ∨
      (∃ slot ∈ p.active ++ p.idle, slot.physical = c.slot.physical) ∨
      IsOpenedFor p.settings a.username a.password c.slot.physical.connection l'.openings
  handed : ∀ hd ∈ a'.handed?,
    ∃ d ∈ a.candidate?, d.generation = p.generation ∧ d.slot.physical = hd.2

section

variable [Server ω] (l : Ledger ω)

/-- Looking for a candidate, after other parts of the acquisition and of the pool have changed. -/
theorem Pool.advances_examine {p q : Pool} {a b : Acquisition} (now : Instant)
    (husername : b.username = a.username) (hpassword : b.password = a.password)
    (hsettings : q.settings = p.settings) (hgeneration : q.generation = p.generation)
    (hactive : q.active = p.active) (hidle : q.idle = p.idle) :
    a.Advances (q.examine now b l).1 p (q.examine now b l).2.1 (q.examine now b l).2.2 := by
  have hchoice := q.candidate_choice now b.username b.password l
  unfold examine
  generalize q.candidate now b.username b.password l = r at hchoice ⊢
  cases hchoice with
  | @idle slot rest hfirst =>
    refine ⟨husername, hpassword, hsettings, hgeneration, ?_, nofun⟩
    rintro c ⟨⟩
    have hmem : slot ∈ p.idle := hidle ▸ hfirst ▸ List.mem_cons_self
    exact .inr (.inl ⟨slot, List.mem_append_right _ hmem, rfl⟩)
  | refused hnone hroom hconnect =>
    exact ⟨husername, hpassword, hsettings, hgeneration, nofun, nofun⟩
  | opened hnone hroom hconnect =>
    have hc := q.settings.connects b.username b.password l
    rw [hconnect] at hc
    cases hc with
    | opened o es hurl hproperties hopenings hentries hsound =>
      refine ⟨husername, hpassword, hsettings, hgeneration, ?_, nofun⟩
      rintro c ⟨⟩
      rw [← husername, ← hpassword, ← hsettings]
      refine .inr (.inr ⟨o, ?_, hurl, hproperties⟩)
      rw [hopenings]
      exact List.getElem?_concat_length
  | @reclaimed oldest rest hnone hroom hfirst hoverdue =>
    refine ⟨husername, hpassword, hsettings, hgeneration, ?_, nofun⟩
    rintro c ⟨⟩
    have hmem : oldest ∈ p.active := hactive ▸ hfirst ▸ List.mem_cons_self
    exact .inr (.inl ⟨oldest, List.mem_append_left _ hmem, rfl⟩)
  | nothing hnone hroom hoverdue =>
    dsimp only
    split
    · exact ⟨husername, hpassword, hsettings, hgeneration, nofun, nofun⟩
    · exact ⟨husername, hpassword, hsettings, hgeneration, nofun, nofun⟩

variable [Clock ω]

/-- The candidate after a section is the one before it, one of the pool's, or newly opened with what
was asked for. -/
theorem Acquisition.advances_step (a : Acquisition) (p : Pool) (hover : a.result? = none) :
    a.Advances (a.step undisturbed p l).1 p (a.step undisturbed p l).2.1
      (a.step undisturbed p l).2.2 := by
  unfold step
  obtain ⟨now, l⟩ := Clock.read l
  obtain ⟨username, password, startedAt, epoch, bad, deadline, waitingSince, lastPass, phase⟩ := a
  cases phase with
  | starting => exact Pool.advances_examine l now rfl rfl rfl rfl rfl rfl
  | parked ticket wakeAt =>
    dsimp only [Pool.wake]
    split
    · exact ⟨rfl, rfl, rfl, rfl, nofun, nofun⟩
    · exact Pool.advances_examine l now rfl rfl rfl rfl rfl rfl
  | checking slot config generation left =>
    -- It keeps its candidate, whatever the test says.
    have hsame (stage : Stage) : ∀ c ∈ some (⟨slot, generation, stage⟩ : Candidate),
        ∃ d ∈ some (⟨slot, generation, .testing left⟩ : Candidate),
          d.generation = c.generation ∧ d.slot.physical = c.slot.physical := by
      rintro c ⟨⟩
      exact ⟨_, rfl, rfl, rfl⟩
    cases left with
    | nil => exact ⟨rfl, rfl, rfl, rfl, fun c hc => .inl (hsame (.tested true) c hc), nofun⟩
    | cons test left =>
      dsimp only [undisturbed]
      generalize slot.passes config now (p.isLive slot.wrapper) test l = r
      obtain ⟨good, l'⟩ := r
      cases good with
      | true => exact ⟨rfl, rfl, rfl, rfl, fun c hc => .inl (hsame (.testing left) c hc), nofun⟩
      | false => exact ⟨rfl, rfl, rfl, rfl, fun c hc => .inl (hsame (.tested false) c hc), nofun⟩
  | checked slot generation good =>
    dsimp only [Pool.conclude]
    split
    · exact ⟨rfl, rfl, rfl, rfl, nofun, nofun⟩
    rename_i hgeneration
    split
    · refine ⟨rfl, rfl, rfl, rfl, nofun, ?_⟩
      rintro hd ⟨⟩
      exact ⟨_, rfl, (not_not.mp hgeneration).symm, rfl⟩
    · exact ⟨rfl, rfl, rfl, rfl, nofun, nofun⟩
  | discarding slot bad => exact ⟨rfl, rfl, rfl, rfl, nofun, nofun⟩
  | discarded bad =>
    dsimp only [Pool.resume]
    split
    · split
      · exact ⟨rfl, rfl, rfl, rfl, nofun, nofun⟩
      · exact Pool.advances_examine l now rfl rfl rfl rfl rfl rfl
    · exact Pool.advances_examine l now rfl rfl rfl rfl rfl rfl
  | done result => exact absurd hover (by simp [result?])

end

namespace Scene

section

variable (s : Scene ω)

/-- The connection that an acquisition checks is known, or was opened for this acquisition, unless
everything was torn down meanwhile. -/
structure Credited : Prop where
  placed : ∀ slot ∈ s.pool.active ++ s.pool.idle, s.inventory.IsKnown slot.physical
  checked : ∀ a ∈ s.acquisitions, ∀ c ∈ a.candidate?, c.generation = s.pool.generation →
    s.inventory.IsKnown c.slot.physical ∨
      IsOpenedFor s.pool.settings a.username a.password c.slot.physical.connection
        s.ledger.openings

/-- Putting an acquisition back changes nothing else, and nothing about the others. -/
theorem mem_acquisitions_put {i : Nat} {a b : Acquisition} (h : b ∈ (s.put i a).acquisitions) :
    b = a ∨ b ∈ s.acquisitions := by
  unfold put at h
  split at h
  · exact (List.mem_or_eq_of_mem_set h).symm
  · exact .inr (List.mem_of_mem_eraseIdx h)
  · exact .inr (List.mem_of_mem_eraseIdx h)

theorem pool_put (i : Nat) (a : Acquisition) : (s.put i a).pool = s.pool := by
  unfold put
  split <;> rfl

theorem ledger_put (i : Nat) (a : Acquisition) : (s.put i a).ledger = s.ledger := by
  unfold put
  split <;> rfl

theorem phase_of_handles_put {i : Nat} {a : Acquisition} {h : Handle}
    (hnew : (s.put i a).handles = s.handles ++ [h]) : a.phase = .done (.ok h) := by
  unfold put at hnew
  split at hnew
  · exact absurd hnew (by simp)
  · exact absurd hnew (by simp)
  · rename_i h' hresult
    obtain rfl : h' = h := List.singleton_inj.mp (List.append_cancel_left hnew)
    exact Acquisition.phase_of_result? hresult

/-- Everything but a section of an acquisition leaves the acquisitions alone, apart from one that
begins, and changes the settings only together with the generation. -/
structure Leaves (s s' : Scene ω) : Prop where
  acquisitions : ∀ a ∈ s'.acquisitions, a ∈ s.acquisitions ∨ a.candidate? = none
  settings : s'.pool.settings = s.pool.settings ∨ s.pool.generation < s'.pool.generation

variable {s} in
theorem Leaves.of_eq {s' : Scene ω} (hacquisitions : s'.acquisitions = s.acquisitions)
    (hsettings : s'.pool.settings = s.pool.settings) : s.Leaves s' :=
  ⟨fun _ ha => .inl (hacquisitions ▸ ha), .inl hsettings⟩

theorem leaves_tearDown (p : Pool) (h : p.generation = s.pool.generation) :
    s.Leaves (s.tearDown p) := by
  unfold tearDown
  rw [Pool.tearDown_eq]
  refine ⟨fun _ ha => .inl ha, .inr ?_⟩
  dsimp only
  omega

variable [Server ω]

theorem settings_giveBack (now : Instant) (wrapper : Nat) (p : Pool) (l : Ledger ω) :
    (p.giveBack now wrapper l).1.settings = p.settings := by
  -- Whether the slot is kept or not, only its place changes, and what is counted.
  have hsettle (q : Pool) (slot : Slot) : (q.settle now slot l).1.settings = q.settings := by
    unfold Pool.settle
    rcases (slot.answers q.config now).run l with ⟨_ | _, l⟩
    · rfl
    · dsimp only
      rcases slot.rollsBack.run l with ⟨rolled, l⟩
      dsimp only
      split
      · rfl
      · rfl
  unfold Pool.giveBack
  cases p.active.find? (·.wrapper == wrapper) with
  | none => rfl
  | some slot =>
    dsimp only
    split
    · exact hsettle _ slot
    · rfl

variable [Clock ω]

/-- Whoever does not proceed leaves the candidates as they are, and the settings unless everything
is torn down. -/
theorem leaves_step (e : Event ω) (he : ∀ i, e ≠ .proceed i) : s.Leaves (s.step e) := by
  cases e with
  | acquire username password =>
    dsimp only [step]
    split
    · exact .of_eq rfl rfl
    · refine ⟨fun a ha => ?_, .inl rfl⟩
      rcases List.mem_append.mp ha with ha | ha
      · exact .inl ha
      · rw [List.mem_singleton.mp ha]
        exact .inr rfl
  | proceed i => exact absurd rfl (he i)
  | ask j call =>
    dsimp only [step, ask]
    cases s.handles[j]? with
    | none => exact .of_eq rfl rfl
    | some h =>
      dsimp only
      split
      · exact .of_eq rfl rfl
      split
      · exact .of_eq rfl rfl
      · exact .of_eq rfl rfl
  | answer k =>
    dsimp only [step, answer]
    cases s.calls[k]? with
    | none => exact .of_eq rfl rfl
    | some c => exact .of_eq rfl rfl
  | giveBack j =>
    dsimp only [step, giveBack]
    cases s.handles[j]? with
    | none => exact .of_eq rfl rfl
    | some h =>
      dsimp only
      split
      · exact .of_eq rfl rfl
      dsimp only [Handle.release, Handle.close]
      split
      · exact .of_eq rfl rfl
      split
      · exact .of_eq rfl rfl
      · exact .of_eq rfl (settings_giveBack _ _ _ _)
  | forceCloseAll =>
    dsimp only [step]
    split
    · exact .of_eq rfl rfl
    · exact s.leaves_tearDown _ rfl
  | reconfigure config settings =>
    dsimp only [step, Pool.adopt]
    split
    · exact .of_eq rfl rfl
    · cases config.validate with
      | error e => exact .of_eq rfl rfl
      | ok u => exact s.leaves_tearDown _ rfl
  | interrupt =>
    dsimp only [step]
    split
    · exact .of_eq rfl rfl
    · exact .of_eq rfl rfl
  | goOn k =>
    dsimp only [step, goOn]
    split
    · exact .of_eq rfl rfl
    · exact .of_eq rfl rfl
    · split
      · exact .of_eq rfl rfl
      · rename_i chore rest hget hfree
        cases chore with
        | wakeAll => exact .of_eq rfl rfl
        | close slot => exact .of_eq rfl rfl
  | drop =>
    dsimp only [step]
    split
    · exact .of_eq rfl rfl
    · exact s.leaves_tearDown _ rfl
  | disturb change => exact .of_eq rfl rfl

variable {s}

/-- Nothing is lost of what is known about a candidate, as long as its generation lasts. -/
theorem Credited.keep (h : s.Credited) (hf : s.inventory.Fits) {e : Event ω}
    (hsettings : (s.step e).pool.settings = s.pool.settings ∨
      s.pool.generation < (s.step e).pool.generation)
    {a : Acquisition} (ha : a ∈ s.acquisitions) {c : Candidate} (hc : c ∈ a.candidate?)
    (hgeneration : c.generation = (s.step e).pool.generation) :
    (s.step e).inventory.IsKnown c.slot.physical ∨
      IsOpenedFor (s.step e).pool.settings a.username a.password c.slot.physical.connection
        (s.step e).ledger.openings := by
  have ht : s.inventory.Transfer (s.step e).inventory := s.transfer_step e
  have hmem : c ∈ s.candidates := List.mem_filterMap.mpr ⟨a, ha, hc⟩
  have hpast : c.generation ≤ s.pool.generation := hf.past c hmem
  have hle : s.pool.generation ≤ (s.step e).pool.generation := ht.generation_le
  have hsame : (s.step e).pool.settings = s.pool.settings := by
    rcases hsettings with hsame | hlt
    · exact hsame
    · omega
  rw [hsame]
  rcases h.checked a ha c hc (by omega) with hknown | hopened
  · exact .inl (hknown.transfer ht)
  · exact .inr (hopened.of_grow ht.openings_grow)

theorem Credited.proceed (h : s.Credited) (hf : s.inventory.Fits) (i : Nat) :
    (s.step (.proceed i)).Credited := by
  have ht : s.inventory.Transfer (s.step (.proceed i)).inventory := s.transfer_step (.proceed i)
  refine ⟨Inventory.forall_isKnown_transfer h.placed ht, ?_⟩
  cases hget : s.acquisitions[i]? with
  | none =>
    have hsame : s.step (.proceed i) = s := by rw [step, Scene.proceed, hget]
    rw [hsame]
    exact h.checked
  | some a =>
    have ha : a ∈ s.acquisitions := List.mem_of_getElem? hget
    rcases s.proceed_eq_put hget with hsame | ⟨hover, -, l, -, hput⟩
    · change s.step (.proceed i) = s at hsame
      rw [hsame]
      exact h.checked
    change s.step (.proceed i) = _ at hput
    have hadvances := a.advances_step l s.pool hover
    have hpool : (s.step (.proceed i)).pool = (a.step undisturbed s.pool l).2.1 := by
      rw [hput, pool_put]
    have hledger : (s.step (.proceed i)).ledger = (a.step undisturbed s.pool l).2.2 := by
      rw [hput, ledger_put]
    have hsettings : (s.step (.proceed i)).pool.settings = s.pool.settings := by
      rw [hpool, hadvances.settings]
    intro b hb c hc hgeneration
    rcases mem_acquisitions_put _ (hput ▸ hb) with rfl | hb
    -- The acquisition itself may have a new candidate, or the one that it had before.
    · rw [hadvances.username, hadvances.password]
      rcases hadvances.candidate c hc with ⟨d, hd, hsame, hphysical⟩ | ⟨slot, hslot, hphysical⟩ |
        hopened
      · rw [← hphysical]
        exact h.keep hf (.inl hsettings) ha hd (hsame.trans hgeneration)
      · rw [← hphysical]
        exact .inl ((h.placed slot hslot).transfer ht)
      · rw [hsettings, hledger]
        exact .inr hopened
    · exact h.keep hf (.inl hsettings) hb hc hgeneration

/-- After every event a connection that is checked was handed out before, or was opened for whoever
checks it. -/
theorem Credited.step (h : s.Credited) (hf : s.inventory.Fits) (e : Event ω) :
    (s.step e).Credited := by
  by_cases he : ∃ i, e = .proceed i
  · obtain ⟨i, rfl⟩ := he
    exact h.proceed hf i
  have hleaves := s.leaves_step e fun i heq => he ⟨i, heq⟩
  refine ⟨Inventory.forall_isKnown_transfer h.placed (s.transfer_step e), ?_⟩
  intro a ha c hc hgeneration
  rcases hleaves.acquisitions a ha with ha | hnone
  · exact h.keep hf hleaves.settings ha hc hgeneration
  · exact absurd hc (by simp [hnone])

end

theorem connection_lt_of_mem_candidates {s : Scene ω} (hs : s.inventory.Orderly)
    {c : Candidate} (hc : c ∈ s.candidates) :
    c.slot.physical.connection < s.ledger.openings.length := by
  have htitle : c.slot.title ∈ s.inventory.titles :=
    Inventory.mem_titles.mpr (.inr (.inr ⟨c, hc, rfl⟩))
  exact hs.separate.place_lt _
    (Multiset.mem_add.mpr (.inl (Multiset.mem_map_of_mem (·.2.connection) htitle)))

theorem exists_handle_of_isKnown {s : Scene ω} {physical : Physical}
    (h : s.inventory.IsKnown physical) : ∃ g ∈ s.handles, g.physical = physical := by
  obtain ⟨shown, hshown, heq⟩ := List.mem_map.mp h
  obtain ⟨g, hg, rfl⟩ := List.mem_map.mp hshown
  exact ⟨g, hg, heq⟩

variable [Server ω] [Clock ω]

theorem Credited.run {s : Scene ω} (h : s.Credited) (hf : s.inventory.Fits)
    (events : List (Event ω)) : (s.run events).Credited := by
  unfold Scene.run
  -- The limits go along: without them, a candidate could be of any generation.
  induction events generalizing s with
  | nil => exact h
  | cons e events ih => exact ih (h.step hf e) (hf.transfer (s.transfer_step e))

theorem credited_run (settings : ConnectionSettings) (config : PoolConfig) (server : ω)
    (events : List (Event ω)) : ((start settings config server).run events).Credited := by
  refine Credited.run ⟨?_, ?_⟩ (fits_start settings config server) events
  · exact fun slot hslot => absurd hslot List.not_mem_nil
  · exact fun a ha => absurd ha List.not_mem_nil

section

variable {s : Scene ω}

/-- What an acquisition hands out is the candidate that it had, if that was chosen since everything
was torn down for the last time. -/
theorem exists_candidate_of_handles_proceed {i : Nat} {a : Acquisition} {h : Handle}
    (hget : s.acquisitions[i]? = some a)
    (hnew : (s.step (.proceed i)).handles = s.handles ++ [h]) :
    ∃ d ∈ a.candidate?, d.generation = s.pool.generation ∧ d.slot.physical = h.physical := by
  rcases s.proceed_eq_put hget with hsame | ⟨hover, -, l, -, hput⟩
  · have hnone : (s.step (.proceed i)).handles = s.handles := congrArg Scene.handles hsame
    exact absurd (hnone.symm.trans hnew) (by simp)
  · change s.step (.proceed i) = _ at hput
    rw [hput] at hnew
    have hphase := phase_of_handles_put _ hnew
    refine (a.advances_step l s.pool hover).handed (h.wrapper, h.physical) ?_
    rw [Acquisition.handed?, hphase]
    rfl

/-- A connection stays as it was opened. -/
theorem getElem?_openings_run {n : Nat} {o : Opening} (ho : s.ledger.openings[n]? = some o)
    (later : List (Event ω)) : (s.run later).ledger.openings[n]? = some o := by
  have hgrow : s.ledger.openings <+: (s.run later).ledger.openings :=
    run_preserves (I := fun v => s.ledger.openings <+: v.openings)
      (fun _ _ hv ht => hv.trans ht.openings_grow) s (List.prefix_refl _) later
  obtain ⟨more, hmore⟩ := hgrow
  obtain ⟨hn, -⟩ := List.getElem?_eq_some_iff.mp ho
  calc (s.run later).ledger.openings[n]? = (s.ledger.openings ++ more)[n]? := by rw [hmore]
    _ = s.ledger.openings[n]? := List.getElem?_append_left hn
    _ = some o := ho

end

/-- Whoever gets a connection for the first time gets it opened with the credentials that were
asked for, for the url and with the properties of the settings; from then on it stays as it was
opened, whoever gets it. -/
theorem run_hands_out_as_opened (settings : ConnectionSettings) (config : PoolConfig) (server : ω)
    (events : List (Event ω)) (i : Nat) (a : Acquisition) (h : Handle) :
    let s := (start settings config server).run events
    let s' := s.step (.proceed i)
    s.acquisitions[i]? = some a → s'.handles = s.handles ++ [h] →
      ∃ o, (∀ later, (s'.run later).ledger.openings[h.physical.connection]? = some o) ∧
        ((∃ g ∈ s.handles, g.physical = h.physical) ∨
          o.url = s.pool.settings.url ∧
            o.properties = s.pool.settings.connectProperties a.username a.password) := by
  intro s s' hget hnew
  have hcredited : s.Credited := credited_run settings config server events
  have horderly : s.inventory.Orderly := orderly_run settings config server events
  have ha : a ∈ s.acquisitions := List.mem_of_getElem? hget
  obtain ⟨d, hd, hgeneration, hphysical⟩ := exists_candidate_of_handles_proceed hget hnew
  have hopenings : s.ledger.openings <+: s'.ledger.openings :=
    (s.transfer_step (.proceed i)).openings_grow
  rcases hcredited.checked a ha d hd hgeneration with hknown | hopened
  -- Known from an earlier holder: what is said about credentials concerns the opening only.
  · have hcandidate : d ∈ s.candidates := List.mem_filterMap.mpr ⟨a, ha, hd⟩
    have hlt : h.physical.connection < s.ledger.openings.length :=
      hphysical ▸ connection_lt_of_mem_candidates horderly hcandidate
    have ho := List.getElem?_eq_getElem (lt_of_lt_of_le hlt hopenings.length_le)
    rw [hphysical] at hknown
    exact ⟨_, getElem?_openings_run ho, .inl (exists_handle_of_isKnown hknown)⟩
  · obtain ⟨o, ho, hurl, hproperties⟩ := hopened.of_grow hopenings
    rw [hphysical] at ho
    exact ⟨o, getElem?_openings_run ho, .inr ⟨hurl, hproperties⟩⟩

def owned : Scene Willing :=
  let settings := { ConnectionSettings.ofUrl "" with username := some "app", password := some "pw" }
  start settings .standard ⟨0⟩

/-- A connection came back that was opened with the pool's own credentials. The next acquisition
asks for other ones, and has found the connection good. -/
def switching : List (Event Willing) :=
  .acquire (some "app") (some "pw") :: List.replicate 6 (.proceed 0) ++
    .giveBack 0 :: .acquire (some "other") (some "pw") :: List.replicate 5 (.proceed 0)

/-- A connection that came back is handed out as it was opened. -/
theorem hands_out_reused :
    let s := owned.run switching
    let s' := s.step (.proceed 0)
    ∃ a h o, s.acquisitions[0]? = some a ∧ s'.handles = s.handles ++ [h] ∧
      (∀ later, (s'.run later).ledger.openings[h.physical.connection]? = some o) ∧
      ((∃ g ∈ s.handles, g.physical = h.physical) ∨
        o.url = s.pool.settings.url ∧
          o.properties = s.pool.settings.connectProperties a.username a.password) := by
  have howned : start owned.pool.settings .standard ⟨0⟩ = owned := rfl
  have hopened := run_hands_out_as_opened owned.pool.settings .standard ⟨0⟩ switching 0
  rw [howned] at hopened
  let h : Handle := ⟨2, ⟨1, 0⟩, ⟨1⟩, ⟨14⟩, ⟨14⟩, "otherpw", false⟩
  have hnew : ((owned.run switching).step (.proceed 0)).handles =
      (owned.run switching).handles ++ [h] := by
    decide
  obtain ⟨a, ha⟩ : ∃ a, (owned.run switching).acquisitions[0]? = some a :=
    Option.isSome_iff_exists.mp (by decide)
  obtain ⟨o, ho⟩ := hopened a h ha hnew
  exact ⟨a, h, o, ha, hnew, ho⟩

/-- Whoever asks for other credentials than the pool's own gets a connection that was opened with
the pool's. -/
theorem hands_out_to_another :
    let s := owned.run switching
    let s' := s.step (.proceed 0)
    s.acquisitions.map (fun a => (a.username, a.password)) = [(some "other", some "pw")] ∧
      ∃ h o, s'.handles = s.handles ++ [h] ∧
        s'.ledger.openings[h.physical.connection]? = some o ∧
        o.properties ≠ s.pool.settings.connectProperties (some "other") (some "pw") := by
  refine ⟨by decide, ⟨2, ⟨1, 0⟩, ⟨1⟩, ⟨14⟩, ⟨14⟩, "otherpw", false⟩,
    ⟨0, "", [("password", "pw"), ("user", "app")]⟩, by decide, rfl, by decide⟩

end Scene
end SqlMapper
