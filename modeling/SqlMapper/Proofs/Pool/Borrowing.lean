import SqlMapper.Proofs.Pool.Holders

/-!
Borrowing: a connection is acquired while nobody else uses the pool, and given back. Nothing is in
use after the return that was not in use before.
-/

namespace SqlMapper

variable {ω : Type}

namespace Inventory

variable {v v' : Inventory}

/-- What is in use was in use before, apart from what is handed out. -/
theorem Transfer.active (h : v.Transfer v') :
    v'.handles = v.handles ∧ v'.active ⊆ v.active ∨
      ∃ slot, v'.handles = v.handles ++ [slot.title] ∧ v'.active = v.active ++ [slot] := by
  cases h with
  | @handOut slot slot' rest hcandidates hwrapper hphysical =>
    refine .inr ⟨slot', ?_, rfl⟩
    rw [Slot.title, hwrapper, hphysical]
  | reclaim hidle hactive => exact .inl ⟨rfl, fun s hs => hactive ▸ List.mem_cons_of_mem _ hs⟩
  | keep hactive => exact .inl ⟨rfl, fun s hs => mem_of_active hactive hs⟩
  | discard hactive => exact .inl ⟨rfl, fun s hs => mem_of_active hactive hs⟩
  | tearDown => exact .inl ⟨rfl, List.nil_subset _⟩
  | _ => exact .inl ⟨rfl, List.Subset.refl _⟩

theorem Separate.ne_of_concat (h : v.Separate) {slot : Slot} {others : List Slot}
    (hactive : v.active = others ++ [slot]) {other : Slot} (hother : other ∈ others) :
    other.wrapper ≠ slot.wrapper ∧ other.physical.connection ≠ slot.physical.connection := by
  have hmem : other.title ∈ titlesOf (others ++ []) v.idle v.candidates :=
    (mem_titlesOf _ _ _).mpr (.inl ⟨other, List.mem_append_left _ hother, rfl⟩)
  have htitles := titles_of_active others [] hactive
  -- No two titles have the same wrapper, nor the same connection.
  have hne {f : Nat × Physical → Nat} (hnodup : (v.titles.map f).Nodup) :
      f other.title ≠ f slot.title := by
    rw [htitles, Multiset.map_cons, Multiset.nodup_cons] at hnodup
    exact fun heq => hnodup.1 (heq ▸ Multiset.mem_map_of_mem f hmem)
  exact ⟨hne h.wrappers, hne (Multiset.nodup_add.mp h.places).1⟩

end Inventory

structure Acquisition.Respects (a' : Acquisition) (p p' : Pool) : Prop where
  dropped : p'.dropped = p.dropped
  returned : ∀ h, a'.result? = some (.ok h) → h.returned = false

section

variable [Server ω] (l : Ledger ω)

theorem Pool.respects_examine {p q : Pool} (now : Instant) (a : Acquisition)
    (hq : q.dropped = p.dropped) :
    (q.examine now a l).1.Respects p (q.examine now a l).2.1 := by
  have hchoice := q.candidate_choice now a.username a.password l
  unfold examine
  generalize q.candidate now a.username a.password l = r at hchoice ⊢
  cases hchoice with
  | nothing hidle hroom hoverdue =>
    dsimp only
    split
    · exact ⟨hq, nofun⟩
    · exact ⟨hq, nofun⟩
  | _ => exact ⟨hq, nofun⟩

variable [Clock ω]

theorem Acquisition.respects_step (a : Acquisition) (p : Pool) (hover : a.result? = none) :
    (a.step undisturbed p l).1.Respects p (a.step undisturbed p l).2.1 := by
  unfold step
  obtain ⟨now, l⟩ := Clock.read l
  obtain ⟨username, password, startedAt, epoch, bad, deadline, waitingSince, lastPass, phase⟩ := a
  cases phase with
  | starting => exact Pool.respects_examine l now _ rfl
  | parked ticket wakeAt =>
    dsimp only [Pool.wake]
    split
    · exact ⟨rfl, nofun⟩
    · exact Pool.respects_examine l now _ rfl
  | checking slot config generation left =>
    cases left with
    | nil => exact ⟨rfl, nofun⟩
    | cons test left =>
      dsimp only [undisturbed]
      rcases slot.passes config now (p.isLive slot.wrapper) test l with ⟨_ | _, l'⟩
      · exact ⟨rfl, nofun⟩
      · exact ⟨rfl, nofun⟩
  | checked slot generation good =>
    dsimp only [Pool.conclude]
    split
    · exact ⟨rfl, nofun⟩
    split
    -- This is where a connection is handed out.
    · refine ⟨rfl, ?_⟩
      rintro h ⟨⟩
      rfl
    · exact ⟨rfl, nofun⟩
  | discarding slot bad => exact ⟨rfl, nofun⟩
  | discarded bad =>
    dsimp only [Pool.resume]
    split
    · split
      · exact ⟨rfl, nofun⟩
      · exact Pool.respects_examine l now _ rfl
    · exact Pool.respects_examine l now _ rfl
  | done result => exact absurd hover (by simp [result?])

end

/-- What is in use when an acquisition is over, with what was in use before: nothing is new but a
slot that was handed out, which comes after the others and shares nothing with them. -/
inductive Pool.Lends (before : List Slot) (p : Pool) : Except Error Handle → Prop where
  | failed {e : Error} (hactive : p.active ⊆ before) : Lends before p (.error e)
  | handed {h : Handle} {others : List Slot} {slot : Slot} (hactive : p.active = others ++ [slot])
      (hothers : others ⊆ before) (hwrapper : slot.wrapper = h.wrapper)
      (hne : ∀ other ∈ others, other.wrapper ≠ h.wrapper ∧
        other.physical.connection ≠ h.physical.connection)
      (hreturned : h.returned = false) :
    Lends before p (.ok h)

theorem Pool.Lends.mono {before before' : List Slot} {p : Pool} {r : Except Error Handle}
    (h : p.Lends before r) (hsub : before ⊆ before') : p.Lends before' r := by
  cases h with
  | failed hactive => exact .failed fun _ hslot => hsub (hactive hslot)
  | handed hactive hothers hwrapper hne hreturned =>
    exact .handed hactive (fun _ hslot => hsub (hothers hslot)) hwrapper hne hreturned

section

variable [Server ω] [Clock ω]

namespace Acquisition

variable {cs : Multiset Candidate} {ds : Multiset Slot}

theorem separate_step (a : Acquisition) (p : Pool) (l : Ledger ω) (hover : a.result? = none)
    (hs : (a.inventory cs ds [] 0 p l).Separate) :
    ((a.step undisturbed p l).1.inventory cs ds [] 0 (a.step undisturbed p l).2.1
      (a.step undisturbed p l).2.2).Separate :=
  hs.transfer (a.transfer_step p l cs ds [] 0 hover
    fun _ _ c hc => absurd hc (Multiset.notMem_zero c))

/-- A section that does not end the acquisition puts nothing in use. -/
theorem lends_step (a : Acquisition) (p : Pool) (l : Ledger ω) (hover : a.result? = none)
    (hs : (a.inventory cs ds [] 0 p l).Separate) :
    ((a.step undisturbed p l).1.result? = none → (a.step undisturbed p l).2.1.active ⊆ p.active) ∧
      ∀ r, (a.step undisturbed p l).1.result? = some r →
        (a.step undisturbed p l).2.1.Lends p.active r := by
  have htransfer := a.transfer_step p l cs ds [] 0 hover
    fun n hn c hc => absurd hc (Multiset.notMem_zero c)
  have hs' := hs.transfer htransfer
  have hrespects := a.respects_step l p hover
  have hactive := htransfer.active
  unfold inventory at hactive
  rw [handed?_of_result? hover] at hactive
  generalize a.step undisturbed p l = x at hactive hs' hrespects ⊢
  obtain ⟨a', p', l'⟩ := x
  dsimp only [Inventory.of, Option.elim] at hactive hs' hrespects ⊢
  refine ⟨fun hresult => ?_, fun r hresult => ?_⟩
  -- Nothing was handed out, so nothing came to be in use.
  · rw [handed?_of_result? hresult] at hactive
    rcases hactive with ⟨-, hsub⟩ | ⟨slot, hhandles, -⟩
    · exact hsub
    · exact absurd hhandles (by simp)
  · have hphase := phase_of_result? hresult
    unfold handed? at hactive
    rw [hphase] at hactive
    cases r with
    | error e =>
      rcases hactive with ⟨-, hsub⟩ | ⟨slot, hhandles, -⟩
      · exact .failed hsub
      · exact absurd hhandles (by simp)
    | ok h =>
      rcases hactive with ⟨hhandles, -⟩ | ⟨slot, hhandles, hslot⟩
      · exact absurd hhandles (by simp)
      obtain ⟨hwrapper, hphysical⟩ : h.wrapper = slot.wrapper ∧ h.physical = slot.physical :=
        Prod.mk.inj (List.singleton_inj.mp hhandles)
      refine .handed hslot (List.Subset.refl _) hwrapper.symm ?_ (hrespects.returned h hresult)
      rw [hwrapper, hphysical]
      exact fun other hother => hs'.ne_of_concat hslot hother

variable (cs ds) in
/-- When an acquisition is over, nothing is newly in use but what it hands out. -/
theorem run_lends {r : Except Error Handle} {p p' : Pool} {l l' : Ledger ω}
    (sections : Nat) (a : Acquisition) (hover : a.result? = none)
    (hs : (a.inventory cs ds [] 0 p l).Separate)
    (hrun : a.run undisturbed sections p l = some (r, p', l')) :
    p'.dropped = p.dropped ∧ p'.Lends p.active r := by
  -- On the sections, for any acquisition that is not over.
  induction sections generalizing a p l with
  | zero => exact absurd hrun (by simp [run])
  | succ sections ih =>
    rw [run, hover] at hrun
    dsimp only at hrun
    split at hrun
    · exact absurd hrun (by simp)
    rename_i l₀ hsleep
    -- An acquisition that sleeps only lets time pass.
    have hs₀ : (a.inventory cs ds [] 0 p l₀).Separate := by
      unfold sleep? at hsleep
      split at hsleep
      · obtain ⟨t, -, rfl⟩ := Option.map_eq_some_iff.mp hsleep
        exact hs
      · rwa [← Option.some.inj hsleep]
    have hs₁ := a.separate_step p l₀ hover hs₀
    have hrespects := a.respects_step l₀ p hover
    obtain ⟨hgoes, hends⟩ := a.lends_step p l₀ hover hs₀
    generalize a.step undisturbed p l₀ = x at hs₁ hrespects hgoes hends hrun
    obtain ⟨a₁, p₁, l₁⟩ := x
    dsimp only at hs₁ hrespects hgoes hends hrun
    cases hresult : a₁.result? with
    | none =>
      obtain ⟨hdropped, hlends⟩ := ih a₁ hresult hs₁ hrun
      exact ⟨hdropped.trans hrespects.dropped, hlends.mono (hgoes hresult)⟩
    | some r₁ =>
      cases sections with
      | zero => exact absurd hrun (by simp [run])
      | succ sections =>
        rw [run, hresult] at hrun
        obtain ⟨rfl, rfl, rfl⟩ : r₁ = r ∧ p₁ = p' ∧ l₁ = l' := by simpa using hrun
        exact ⟨hrespects.dropped, hends r₁ hresult⟩

end Acquisition

theorem Pool.connection_lends {r : Except Error Handle} {p p' : Pool} {l l' : Ledger ω}
    {cs : Multiset Candidate} {ds : Multiset Slot} {hs : List (Nat × Physical)}
    {calls : Multiset Ongoing} (h : (Inventory.of p l cs ds hs calls).Separate)
    (hrun : p.connection undisturbed l = some (r, p', l')) :
    p'.dropped = p.dropped ∧ p'.Lends p.active r := by
  unfold connection acquire at hrun
  refine Acquisition.run_lends cs ds _ _ rfl ?_ hrun
  exact ⟨h.wrappers, h.numbers, h.places, h.wrapper_le, h.number_le, h.place_lt, h.live_iff⟩

omit [Clock ω] in
/-- A return takes the first slot with its wrapper out of use, and no other one. -/
theorem Pool.active_giveBack (now : Instant) (wrapper : Nat) (p : Pool) (l : Ledger ω) :
    (p.giveBack now wrapper l).1.active = p.active.eraseP (·.wrapper == wrapper) := by
  -- Whatever becomes of the slot, it is not in use any more, and the others stay.
  have hsettle (q : Pool) (slot : Slot) : (q.settle now slot l).1.active = q.active := by
    unfold Pool.settle
    rcases (slot.answers q.config now).run l with ⟨_ | _, l⟩
    · rfl
    · dsimp only
      rcases slot.rollsBack.run l with ⟨rolled, l⟩
      dsimp only
      split
      · rfl
      · rfl
  unfold Pool.giveBack
  cases hfind : p.active.find? (·.wrapper == wrapper) with
  | none =>
    have hnone := List.find?_eq_none.mp hfind
    exact (List.eraseP_of_forall_not hnone).symm
  | some slot =>
    dsimp only
    split
    · exact hsettle _ slot
    · rfl

/-- What was handed out is no longer in use once it was given back, and nothing else is new. -/
theorem Pool.Lends.release {before : List Slot} {p : Pool} {h : Handle}
    (hlends : p.Lends before (.ok h)) (hthere : p.dropped = false) (l : Ledger ω) :
    (h.release p l).2.1.active ⊆ before ∧ ∀ slot ∈ (h.release p l).2.1.active,
      slot.wrapper ≠ h.wrapper ∧ slot.physical.connection ≠ h.physical.connection := by
  cases hlends with
  | @handed _ others slot hactive hothers hwrapper hne hreturned =>
    have hgone : (h.release p l).2.1.active = others := by
      unfold Handle.release Handle.close
      dsimp only
      rw [hreturned, if_neg (by simp), hthere, if_neg (by simp)]
      dsimp only
      have hkept : ∀ other ∈ others, ¬ (other.wrapper == h.wrapper) = true :=
        fun other hother => by simpa using (hne other hother).1
      rw [active_giveBack, hactive, List.eraseP_append_right _ hkept,
        List.eraseP_cons_of_pos (by simpa using hwrapper), List.append_nil]
    rw [hgone]
    exact ⟨hothers, hne⟩

end

end SqlMapper
