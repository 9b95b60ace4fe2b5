import SqlMapper.Proofs.Pool.Credentials
import SqlMapper.Proofs.Pool.Modes
import SqlMapper.Proofs.Pool.Moves

/-!
Whether the connections of a pool commit by themselves. The settings say so for every connection
that is opened, and from then on only its holders change it.
-/

namespace SqlMapper

open Connection Ledger

variable {ω : Type}

namespace CommitModes

section

variable [Server ω] [Clock ω] {m : CommitModes ω} {P : List Opening → Nat → Prop}
  {l l' : Ledger ω}

theorem isQuiet_rollsBack (slot : Slot) :
    m.IsQuiet P (slot.rollsBack : StateM (Ledger ω) Bool) :=
  isQuiet_succeeds isQuiet_rollBackIfNeeded

theorem isQuiet_answers (config : PoolConfig) (now : Instant) (slot : Slot) :
    m.IsQuiet P (slot.answers config now : StateM (Ledger ω) Bool) := by
  have hopen : m.IsQuiet P (slot.isOpen : StateM (Ledger ω) Bool) := by
    refine isQuiet_bind (isQuiet_perform .isClosed (by simp)) fun r => ?_
    rcases r with e | closed
    · exact isQuiet_pure false
    · exact isQuiet_pure (!closed)
  have hquery : m.IsQuiet P (slot.testQuery config.pingQuery : Action (Ledger ω) Unit).run :=
    isQuiet_andThen (isQuiet_perform (.execute config.pingQuery) (by simp))
      fun _ => isQuiet_rollBackIfNeeded
  refine isQuiet_bind hopen fun isOpen => ?_
  split
  · exact isQuiet_pure false
  split
  · exact isQuiet_pure true
  refine isQuiet_bind (isQuiet_succeeds hquery) fun passed => ?_
  split
  · exact isQuiet_pure true
  · exact isQuiet_bind (isQuiet_perform .close (by simp)) fun _ => isQuiet_pure false

theorem isQuiet_passes (config : PoolConfig) (now : Instant) (isLive : Bool) (test : Slot.Test)
    (slot : Slot) : m.IsQuiet P (slot.passes config now isLive test : StateM (Ledger ω) Bool) := by
  cases test with
  | live => exact isQuiet_pure isLive
  | answers => exact isQuiet_answers config now slot
  | rollsBack => exact isQuiet_rollsBack slot

theorem keeps_sleep? {a : Acquisition} {p : Pool} (h : a.sleep? p l = some l') :
    m.Keeps P l l' := by
  unfold Acquisition.sleep? at h
  split at h
  · obtain ⟨t, -, rfl⟩ := Option.map_eq_some_iff.mp h
    exact keeps_waitUntil t
  · rw [← Option.some.inj h]
    exact .refl

/-- A return does not change the mode of any connection. -/
theorem keeps_giveBack (now : Instant) (wrapper : Nat) (p : Pool) :
    m.Keeps P l (p.giveBack now wrapper l).2 := by
  have hdiscard (slot : Slot) (p : Pool) (l : Ledger ω) : m.Keeps P l (p.discard slot l).2 :=
    isQuiet_closeQuietly l
  have hsettle (slot : Slot) (p : Pool) : m.Keeps P l (p.settle now slot l).2 := by
    have hanswers := isQuiet_answers (m := m) (P := P) p.config now slot l
    unfold Pool.settle
    rcases hrun : (slot.answers p.config now).run l with ⟨_ | _, l₁⟩
    · rw [← show _ = l₁ from congrArg Prod.snd hrun]
      exact hanswers.trans (hdiscard slot p _)
    · have hrolls := isQuiet_rollsBack (m := m) (P := P) slot l₁
      dsimp only
      rcases hrun₂ : (slot.rollsBack : StateM (Ledger ω) Bool).run l₁ with ⟨rolled, l₂⟩
      have hboth : m.Keeps P l l₂ := by
        rw [← show _ = l₁ from congrArg Prod.snd hrun] at hrolls hrun₂
        rw [← show _ = l₂ from congrArg Prod.snd hrun₂]
        exact hanswers.trans hrolls
      dsimp only
      split
      · exact hboth
      · exact hboth.trans (hdiscard slot _ l₂)
  unfold Pool.giveBack
  cases p.active.find? (·.wrapper == wrapper) with
  | none => exact .refl
  | some slot =>
    dsimp only
    split
    · exact hsettle slot _
    · exact isQuiet_closeQuietly l

/-- What a section of an acquisition does to the connections: it changes none that was there. It may
have a new one as its candidate, which was set up. -/
theorem section_extends {now : Instant} {a a' : Acquisition} {p p' : Pool}
    (h : a.Section now p l a' p' l') (hd : m.IsDistinct l) :
    m.Extends l l' ∧ (l'.openings = l.openings ∨
      (∀ b, p.settings.autoCommit = some b → ∀ o, l'.openings[l.openings.length]? = some o →
        m.mode l'.server o.connection = b) ∨
      a'.candidate? = none ∧ p'.active = p.active ∧ p'.idle = p.idle ∧
        p'.generation = p.generation) := by
  have hquiet (hkeeps : m.Keeps (fun _ _ => True) l l') :
      m.Extends l l' ∧ l'.openings = l.openings :=
    ⟨hkeeps.extends hd, hkeeps.openings⟩
  cases h with
  | @looks b a' q p' l' hturn hlooks =>
    obtain ⟨-, hidle, hactive, hsettings, hgeneration⟩ := hturn.keeps
    cases hlooks with
    | picks | reclaims | waits | givesUp => exact (hquiet .refl).imp_right .inl
    | opens hnone hroom hconnect =>
      obtain ⟨hextends, hnew⟩ := connect_extends q.settings b.username b.password hd
      rw [hconnect] at hextends hnew
      obtain ⟨rfl, hmode⟩ := hnew _ rfl
      exact ⟨hextends, .inr (.inl (hsettings ▸ hmode))⟩
    | refused hnone hroom hconnect =>
      obtain ⟨hextends, -⟩ := connect_extends p'.settings b.username b.password hd
      rw [hconnect] at hextends
      exact ⟨hextends, .inr (.inr ⟨rfl, hactive, hidle, hgeneration⟩)⟩
  | passes hphase htest | failsTest hphase htest =>
    have hkeeps : m.Keeps (fun _ _ => True) l l' := by
      rw [← show _ = l' from congrArg Prod.snd htest]
      exact isQuiet_passes _ _ _ _ _ l
    exact (hquiet hkeeps).imp_right .inl
  | closes hphase => exact (hquiet (isQuiet_closeQuietly l)).imp_right .inl
  | _ => exact (hquiet .refl).imp_right .inl

end

end CommitModes

namespace Scene

/-- An acquisition that has no candidate adds nothing to what serves. -/
theorem serves_of_put {s : Scene ω} {i : Nat} {a' : Acquisition} {p' : Pool} {l' : Ledger ω}
    {n : Nat} (hnone : a'.candidate? = none) (hactive : p'.active = s.pool.active)
    (hidle : p'.idle = s.pool.idle) (hgeneration : p'.generation = s.pool.generation)
    (h : ({ s with pool := p', ledger := l' }.put i a').inventory.Serves n) :
    s.inventory.Serves n := by
  have hpool := pool_put { s with pool := p', ledger := l' } i a'
  rcases h with ⟨slot, hslot, rfl⟩ | ⟨slot, hslot, rfl⟩ | ⟨c, hc, hnow, rfl⟩
  · change slot ∈ ({ s with pool := p', ledger := l' }.put i a').pool.active at hslot
    rw [hpool] at hslot
    dsimp only at hslot
    rw [hactive] at hslot
    exact Inventory.has_of_active (v := s.inventory) hslot
  · change slot ∈ ({ s with pool := p', ledger := l' }.put i a').pool.idle at hslot
    rw [hpool] at hslot
    dsimp only at hslot
    rw [hidle] at hslot
    exact Inventory.has_of_idle (v := s.inventory) hslot
  · change c.generation = ({ s with pool := p', ledger := l' }.put i a').pool.generation at hnow
    rw [hpool] at hnow
    obtain ⟨b, hb, hcandidate⟩ := List.mem_filterMap.mp (Multiset.mem_coe.mp hc)
    rcases mem_acquisitions_put _ hb with rfl | hb
    · exact absurd (hnone.symm.trans hcandidate) (by simp)
    · have hmem : c ∈ s.inventory.candidates := List.mem_filterMap.mpr ⟨b, hb, hcandidate⟩
      exact Inventory.has_of_candidate hmem (hnow.trans hgeneration)

variable [Server ω] [Clock ω] {m : CommitModes ω}

structure HasModes (m : CommitModes ω) (s : Scene ω) : Prop where
  distinct : m.IsDistinct s.ledger
  mode : ∀ b, s.pool.settings.autoCommit = some b → ∀ n, s.inventory.Serves n →
    ∀ o, s.ledger.openings[n]? = some o →
      m.mode s.ledger.server o.connection = (lastSet n s.ledger.entries).getD b

variable {s s' : Scene ω}

/-- A step that changes no mode but that of a connection it opens leaves every connection the mode
that was set last. -/
theorem HasModes.extend (h : s.HasModes m) (hs : s.inventory.Orderly)
    (hextends : m.Extends s.ledger s'.ledger) (hsettings : s'.pool.settings = s.pool.settings)
    (hserves : ∀ n, s'.inventory.Serves n → s.inventory.Serves n ∨
      n = s.ledger.openings.length ∧ ∀ b, s.pool.settings.autoCommit = some b →
        ∀ o, s'.ledger.openings[n]? = some o → m.mode s'.ledger.server o.connection = b) :
    s'.HasModes m := by
  refine ⟨hextends.distinct, fun b hb n hn o ho => ?_⟩
  rw [hsettings] at hb
  rw [hextends.unset]
  rcases hserves n hn with hold | ⟨rfl, hnew⟩
  · have hlt : n < s.ledger.openings.length := Inventory.Has.lt hold hs.separate
    obtain ⟨more, hmore⟩ := hextends.grows
    rw [← hmore, List.getElem?_append_left hlt] at ho
    rw [hextends.mode o (List.mem_of_getElem? ho)]
    exact h.mode b hb n hold o ho
  -- Nobody has made a call on a connection that was not there.
  · have hnone : lastSet s.ledger.openings.length s.ledger.entries = none :=
      lastSet_eq_none fun e he => Nat.ne_of_lt (hs.fair.opened e he)
    rw [hnone]
    exact hnew b hb o ho

theorem HasModes.quiet (h : s.HasModes m) (hs : s.inventory.Orderly)
    (hkeeps : m.Keeps (fun _ _ => True) s.ledger s'.ledger)
    (hsettings : s'.pool.settings = s.pool.settings) (hf : s.inventory.Fits)
    (ht : s.inventory.Transfer s'.inventory) : s'.HasModes m := by
  refine h.extend hs (hkeeps.extends h.distinct) hsettings fun n hn => ?_
  rcases ht.serves hf n hn with hold | rfl
  · exact .inl hold
  · refine .inr ⟨rfl, fun b hb o ho => ?_⟩
    have hlt := (List.getElem?_eq_some_iff.mp ho).1
    rw [hkeeps.openings] at hlt
    exact absurd hlt (Nat.lt_irrefl _)

/-- A holder's call sets the connection that it is made on, or none. -/
theorem HasModes.answer (h : s.HasModes m) (wrapper connection : Nat) (call : Call)
    (calls : List Ongoing) : HasModes m { s with
      calls := calls
      ledger := (s.ledger.callFor (some wrapper) connection call).2 } := by
  unfold Ledger.callFor Ledger.answer
  cases hget : s.ledger.openings[connection]? with
  | none =>
    refine ⟨⟨h.distinct.nodup, h.distinct.known⟩, fun b hb n hn o ho => ?_⟩
    dsimp only
    rw [lastSet_cons, setting?_of_error]
    exact h.mode b hb n hn o ho
  | some x =>
    have hknown : ∀ o ∈ s.ledger.openings,
        m.isKnown (Server.perform x.connection call s.ledger.server).2 o.connection :=
      fun o ho => m.performs x.connection call s.ledger.server _ (h.distinct.known o ho)
    refine ⟨⟨h.distinct.nodup, hknown⟩, fun b hb n hn o ho => ?_⟩
    have hbefore : m.mode s.ledger.server o.connection = (lastSet n s.ledger.entries).getD b :=
      h.mode b hb n hn o ho
    dsimp only at ho ⊢
    rw [lastSet_cons]
    by_cases hsame : n = connection
    swap
    -- It is made on another connection, also of the server.
    · have hother : o.connection ≠ x.connection := by
        intro heq
        have hlt := (List.getElem?_eq_some_iff.mp ho).1
        refine hsame ((List.getElem?_inj ?_ h.distinct.nodup).mp ?_)
        · rwa [List.length_map]
        · rw [List.getElem?_map, List.getElem?_map, ho, hget, Option.map_some, heq]
          rfl
      rw [setting?_of_ne (Ne.symm hsame), m.others x.connection call s.ledger.server _ hother]
      exact hbefore
    subst hsame
    obtain rfl : x = o := Option.some.inj (hget.symm.trans ho)
    by_cases hsets : ∃ on, call = .setAutoCommit on
    · obtain ⟨on, rfl⟩ := hsets
      have hset := m.sets x.connection on s.ledger.server
      have hfails := m.fails x.connection on s.ledger.server
      rcases hreply : (Server.perform x.connection (.setAutoCommit on) s.ledger.server).1 with e | u
      · rw [setting?_of_error, hfails e hreply]
        exact hbefore
      · rw [hset hreply]
        simp [Entry.setting?]
    · have hkeeps : ∀ on, call ≠ .setAutoCommit on := fun on heq => hsets ⟨on, heq⟩
      rw [setting?_of_call hkeeps, m.keeps x.connection call s.ledger.server hkeeps]
      exact hbefore

/-- No connection that was there serves after everything was torn down. -/
theorem HasModes.tearDown (h : s.HasModes m) (hf : s.inventory.Fits) {p : Pool}
    (hgeneration : p.generation = s.pool.generation) : (s.tearDown p).HasModes m := by
  have hrid := isRidOf_tearDown hf p hgeneration
  refine ⟨h.distinct, fun b hb n hn o ho => ?_⟩
  have hle : s.ledger.openings.length ≤ n := hrid.serves n hn
  obtain ⟨hlt, -⟩ := List.getElem?_eq_some_iff.mp ho
  exact absurd hlt (Nat.not_lt.mpr hle)

/-- Every event leaves every connection of the scene the mode that was set last. -/
theorem HasModes.step (h : s.HasModes m) (hs : s.inventory.Orderly) (hf : s.inventory.Fits)
    (e : Event ω) (hcalm : ∀ change, e = .disturb change → m.IsCalm change) :
    (s.step e).HasModes m := by
  have ht := s.transfer_step e
  have hmoves := s.moves_step e
  generalize s.step e = s' at hmoves ht ⊢
  cases hmoves with
  | begins hthere => exact h.quiet hs CommitModes.keeps_read rfl hf ht
  | outlives hget hgone => exact h.quiet hs CommitModes.keeps_read rfl hf ht
  | returnsAgain hget hreturned => exact h.quiet hs CommitModes.keeps_read rfl hf ht
  | @proceeds i a a' p' l l' hget hover hsleep hstep hsection =>
    have hkeeps : m.Keeps (fun _ _ => True) s.ledger (Clock.read l).2 :=
      (CommitModes.keeps_sleep? hsleep).trans CommitModes.keeps_read
    have hadvances := a.advances_step l s.pool hover
    rw [hstep] at hadvances
    obtain ⟨hextends, hnew⟩ :=
      CommitModes.section_extends hsection (hkeeps.distinct h.distinct)
    rw [hkeeps.openings] at hnew
    refine h.extend hs ?_ ?_ fun n hn => ?_
    · rw [ledger_put]
      exact hkeeps.trans_extends hextends
    · rw [pool_put]
      exact hadvances.settings
    rw [ledger_put]
    rcases ht.serves hf n hn with hold | rfl
    · exact .inl hold
    rcases hnew with hsame | hmode | ⟨hnone, hactive, hidle, hgeneration⟩
    -- Nothing was opened.
    · refine .inr ⟨rfl, fun b hb o ho => ?_⟩
      obtain ⟨hlt, -⟩ := List.getElem?_eq_some_iff.mp ho
      dsimp only at hlt
      rw [hsame] at hlt
      exact absurd hlt (Nat.lt_irrefl _)
    · exact .inr ⟨rfl, hmode⟩
    -- What was opened could not be set up, and does not serve.
    · exact .inl (serves_of_put hnone hactive hidle hgeneration hn)
  | answers hget => exact h.answer _ _ _ _
  | @returns j g p' l' hget hfree hfirst hthere hgiveBack hreturn =>
    have hkeeps : m.Keeps (fun _ _ => True) s.ledger
        (s.pool.giveBack (Clock.read s.ledger).1 g.wrapper (Clock.read s.ledger).2).2 :=
      CommitModes.keeps_read.trans (CommitModes.keeps_giveBack _ g.wrapper s.pool)
    rw [hgiveBack] at hkeeps
    refine h.quiet hs hkeeps ?_ hf ht
    cases hreturn <;> rfl
  | closesAll dropped htears hconfig => exact h.tearDown hf rfl
  | reconfigures htears => exact h.tearDown hf rfl
  | closes hget => exact h.quiet hs (CommitModes.isQuiet_closeQuietly s.ledger) rfl hf ht
  | disturbs change =>
    refine h.quiet hs ⟨rfl, fun k => ?_, fun k _ => ?_, fun _ => rfl⟩ rfl hf ht
    · exact (hcalm change rfl s.ledger.server k).1
    · exact (hcalm change rfl s.ledger.server k).2
  | _ => exact h.quiet hs .refl rfl hf ht

theorem HasModes.run (h : s.HasModes m) (hs : s.inventory.Orderly) (hf : s.inventory.Fits)
    (events : List (Event ω)) (hcalm : ∀ change, .disturb change ∈ events → m.IsCalm change) :
    (s.run events).HasModes m := by
  unfold Scene.run
  induction events generalizing s with
  | nil => exact h
  | cons e events ih =>
    have ht := s.transfer_step e
    refine ih (h.step hs hf e ?_) (hs.transfer ht) (hf.transfer ht) ?_
    · rintro change rfl
      exact hcalm change List.mem_cons_self
    · exact fun change hmem => hcalm change (List.mem_cons_of_mem _ hmem)

/-- A valid handle that is asked whether its connection commits by itself answers, if the server
answers, what a holder of this physical connection has set last, and as long as none has set
anything, what the pool's settings say. -/
theorem run_answers_mode (m : CommitModes ω) (settings : ConnectionSettings) (config : PoolConfig)
    (server : ω) (events : List (Event ω))
    (hcalm : ∀ change, .disturb change ∈ events → m.IsCalm change) :
    let s := (start settings config server).run events
    ∀ b, s.pool.settings.autoCommit = some b → ∀ h ∈ s.handles, h.isValid s.pool = true →
      ∀ on, ((h.perform s.pool .autoCommit).run s.ledger).1 = .ok on →
        on = (lastSet h.physical.connection s.ledger.entries).getD b := by
  intro s b hb h hh hvalid on hon
  have hstart : (start settings config server).HasModes m := by
    refine ⟨⟨List.nodup_nil, ?_⟩, ?_⟩
    · exact fun o ho => absurd ho List.not_mem_nil
    · exact fun b hb n hn o ho => absurd ho (by simp [start, Ledger.start])
  have hmodes : s.HasModes m := hstart.run (orderly_start settings config server)
    (fits_start settings config server) events hcalm
  obtain ⟨hs, hholds⟩ := holds_run settings config server events
  -- A valid handle is for a slot in use, and that serves.
  have hhandle : (h.wrapper, h.physical) ∈ s.inventory.handles := List.mem_map_of_mem hh
  obtain ⟨slot, hslot, hwrapper⟩ :=
    (hholds.mem_live_iff hs hhandle).mp (List.contains_iff_mem.mp hvalid)
  have hphysical : slot.physical = h.physical := hholds.active_eq _ hhandle slot hslot hwrapper
  have hserves : s.inventory.Serves h.physical.connection :=
    hphysical ▸ Inventory.has_of_active hslot
  have hreply : (s.ledger.callFor none h.physical.connection .autoCommit).1 = .ok on := by
    unfold Handle.perform at hon
    rw [if_pos hvalid] at hon
    exact hon
  unfold Ledger.callFor Ledger.answer at hreply
  cases ho : s.ledger.openings[h.physical.connection]? with
  | none =>
    rw [ho] at hreply
    exact absurd hreply (by simp)
  | some o =>
    rw [ho] at hreply
    calc on = m.mode s.ledger.server o.connection :=
          m.answers o.connection s.ledger.server on hreply
      _ = (lastSet h.physical.connection s.ledger.entries).getD b :=
          hmodes.mode b hb _ hserves o ho

def committing : Scene (Recorder MemoryServer) :=
  start { ConnectionSettings.ofUrl "" with autoCommit := some true } .standard
    (.start (.start false))

/-- A holder sets its connection not to commit by itself and gives it back. The next holder gets
it. -/
def relaying : List (Event (Recorder MemoryServer)) :=
  .acquire none none :: List.replicate 6 (.proceed 0) ++
    [.ask 0 (.setAutoCommit false), .answer 0, .giveBack 0] ++
    .acquire none none :: List.replicate 6 (.proceed 0)

theorem answers_mode_relayed :
    let s := committing.run relaying
    ∃ h ∈ s.handles, h.wrapper = 2 ∧ h.isValid s.pool = true ∧
      ((h.perform s.pool .autoCommit).run s.ledger).1 = .ok false ∧
      false = (lastSet h.physical.connection s.ledger.entries).getD true := by
  have hcommitting : start committing.pool.settings .standard (.start (.start false)) =
      committing := rfl
  have hmode := run_answers_mode MemoryServer.recorded committing.pool.settings .standard
    (.start (.start false)) relaying
  rw [hcommitting] at hmode
  have hcalm : ∀ change, .disturb change ∈ relaying → MemoryServer.recorded.IsCalm change := by
    intro change hmem
    simp [relaying] at hmem
  obtain ⟨h, hh, hsecond, hvalid, hreply⟩ : ∃ h ∈ (committing.run relaying).handles,
      h.wrapper = 2 ∧ h.isValid (committing.run relaying).pool = true ∧
        ((h.perform (committing.run relaying).pool .autoCommit).run
          (committing.run relaying).ledger).1 = .ok false := by
    decide
  exact ⟨h, hh, hsecond, hvalid, hreply, hmode hcalm true rfl h hh hvalid false hreply⟩

/-- The next holder, who has made no call yet, does not find what the settings say. -/
theorem answers_otherwise_relayed :
    let s := committing.run relaying
    s.pool.settings.autoCommit = some true ∧ ∃ h ∈ s.handles, h.isValid s.pool = true ∧
      (∀ e ∈ s.ledger.entries, e.caller ≠ some h.wrapper) ∧
      ((h.perform s.pool .autoCommit).run s.ledger).1 = .ok false := by
  decide

end Scene
end SqlMapper
