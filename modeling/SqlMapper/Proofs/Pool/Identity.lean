import SqlMapper.Proofs.Pool.Credentials
import SqlMapper.Proofs.Pool.Moves

/-!
Whose connections a pool keeps. A connection that was opened for somebody else and then taken over
is taken for the pool's own; no other way leads a foreign connection into the pool.
-/

namespace SqlMapper

open Ledger

variable {ω : Type}

namespace Pool

def fingerprintOf (p : Pool) (username password : Option String) : String :=
  ConnectionSettings.fingerprint p.settings.url username password

section

variable (p : Pool) (asked : Option String → Option String → Prop) (taken : Slot → Prop)
  (openings : List Opening)

/-- A connection was opened for credentials that were asked for: for some with the pool's own
fingerprint, or for some that are like others; if not, it was taken from somebody who had asked with
another fingerprint than the pool's. -/
def StemsFrom (physical : Physical) (like : Option String → Option String → Prop) : Prop :=
  ∃ username password, asked username password ∧
    IsOpenedFor p.settings username password physical.connection openings ∧
    (p.fingerprintOf username password = p.fingerprint ∨ like username password ∨
      ∃ slot, taken slot ∧ slot.physical = physical ∧ slot.fingerprint ≠ p.fingerprint)

structure KnowsOrigins : Prop where
  idle : ∀ slot ∈ p.idle, p.StemsFrom asked taken openings slot.physical fun _ _ => False
  active : ∀ slot ∈ p.active,
    p.StemsFrom asked taken openings slot.physical fun username password =>
      p.fingerprintOf username password = slot.fingerprint

end

variable {p p' : Pool} {asked : Option String → Option String → Prop} {taken : Slot → Prop}
  {openings openings' : List Opening}

theorem StemsFrom.imp {physical : Physical} {like like' : Option String → Option String → Prop}
    (h : p.StemsFrom asked taken openings physical like) (hsettings : p'.settings = p.settings)
    (hgrow : openings <+: openings')
    (hlike : ∀ username password, asked username password → like username password →
      like' username password ∨ p.fingerprintOf username password = p.fingerprint ∨
        ∃ slot, taken slot ∧ slot.physical = physical ∧ slot.fingerprint ≠ p.fingerprint) :
    p'.StemsFrom asked taken openings' physical like' := by
  obtain ⟨username, password, hasked, hopened, horigin⟩ := h
  refine ⟨username, password, hasked, hsettings ▸ hopened.of_grow hgrow, ?_⟩
  rw [fingerprintOf, fingerprint, hsettings]
  rcases horigin with hown | hlike' | htaken
  · exact .inl hown
  · rcases hlike username password hasked hlike' with hlike | hown | htaken
    · exact .inr (.inl hlike)
    · exact .inl hown
    · exact .inr (.inr htaken)
  · exact .inr (.inr htaken)

theorem StemsFrom.grow {physical : Physical} {like : Option String → Option String → Prop}
    (h : p.StemsFrom asked taken openings physical like) (hsettings : p'.settings = p.settings)
    (hgrow : openings <+: openings') : p'.StemsFrom asked taken openings' physical like :=
  h.imp hsettings hgrow fun _ _ _ hlike => .inl hlike

theorem KnowsOrigins.shrink (h : p.KnowsOrigins asked taken openings)
    (hsettings : p'.settings = p.settings) (hgrow : openings <+: openings')
    (hidle : p'.idle ⊆ p.idle) (hactive : p'.active ⊆ p.active) :
    p'.KnowsOrigins asked taken openings' := by
  refine ⟨fun slot hslot => (h.idle slot (hidle hslot)).grow hsettings hgrow, fun slot hslot => ?_⟩
  unfold fingerprintOf
  rw [hsettings]
  exact (h.active slot (hactive hslot)).grow hsettings hgrow

theorem KnowsOrigins.keep (h : p.KnowsOrigins asked taken openings)
    (hsettings : p'.settings = p.settings) (hgrow : openings <+: openings')
    (hidle : p'.idle = p.idle) (hactive : p'.active = p.active) :
    p'.KnowsOrigins asked taken openings' :=
  h.shrink hsettings hgrow (fun _ hs => hidle ▸ hs) (fun _ hs => hactive ▸ hs)

end Pool

namespace Acquisition

def KnowsOrigin (a : Acquisition) (p : Pool) (asked : Option String → Option String → Prop)
    (taken : Slot → Prop) (openings : List Opening) : Prop :=
  ∀ c ∈ a.candidate?, c.generation = p.generation →
    p.StemsFrom asked taken openings c.slot.physical fun username password =>
      username = a.username ∧ password = a.password

variable {a a' b : Acquisition} {p p' q : Pool} {asked : Option String → Option String → Prop}
  {taken : Slot → Prop} {openings : List Opening}

theorem knowsOrigin_of_none (h : a.candidate? = none) : a.KnowsOrigin p asked taken openings := by
  intro c hc
  rw [h] at hc
  exact absurd hc (by simp)

variable {now : Instant} [Server ω] {l l' : Ledger ω}

/-- An acquisition that looks for a candidate takes one whose origin is known. -/
theorem Looks.origins (h : b.Looks now q l a' p' l')
    (hq : q.KnowsOrigins asked taken l.openings) (hasked : asked b.username b.password)
    (hnodup : q.active.Nodup) (htaken : ∀ slot ∈ q.active, slot ∉ p'.active → taken slot)
    (hgrow : l.openings <+: l'.openings) :
    p'.KnowsOrigins asked taken l'.openings ∧ a'.KnowsOrigin p' asked taken l'.openings := by
  cases h with
  | @picks slot rest hidle =>
    have hfirst : slot ∈ q.idle := hidle ▸ List.mem_cons_self
    refine ⟨hq.shrink rfl hgrow ?_ (List.Subset.refl _), ?_⟩
    · exact fun s hs => hidle ▸ List.mem_cons_of_mem _ hs
    · rintro c ⟨⟩ -
      exact (hq.idle slot hfirst).imp rfl hgrow fun _ _ _ hno => hno.elim
  | opens hidle hroom hconnect =>
    refine ⟨hq.keep rfl hgrow rfl rfl, ?_⟩
    have hconnects := q.settings.connects b.username b.password l
    rw [hconnect] at hconnects
    cases hconnects with
    | opened o es hurl hproperties hopenings hentries hsound =>
      rintro c ⟨⟩ -
      have hopened :
          IsOpenedFor q.settings b.username b.password l.openings.length l'.openings := by
        refine ⟨o, ?_, hurl, hproperties⟩
        rw [hopenings]
        exact List.getElem?_concat_length
      exact ⟨b.username, b.password, hasked, hopened, .inr (.inl ⟨rfl, rfl⟩)⟩
  | refused hidle hroom hconnect =>
    exact ⟨hq.keep rfl hgrow rfl rfl, knowsOrigin_of_none rfl⟩
  | @reclaims oldest rest hidle hroom hactive hoverdue =>
    have hfirst : oldest ∈ q.active := hactive ▸ List.mem_cons_self
    have hgone : oldest ∉ rest := by
      rw [hactive, List.nodup_cons] at hnodup
      exact hnodup.1
    have hold : taken oldest := htaken oldest hfirst hgone
    refine ⟨hq.shrink rfl hgrow (List.Subset.refl _) ?_, ?_⟩
    · exact fun s hs => hactive ▸ List.mem_cons_of_mem _ hs
    · rintro c ⟨⟩ -
      refine (hq.active oldest hfirst).imp rfl hgrow fun username password _ hlike => .inr ?_
      -- Its holder had asked as the pool would, or it was taken from somebody else.
      by_cases hsame : oldest.fingerprint = q.fingerprint
      · exact .inl (hlike.trans hsame)
      · exact .inr ⟨oldest, hold, rfl, hsame⟩
  | waits hidle hroom hlast hoverdue =>
    exact ⟨hq.keep rfl hgrow rfl rfl, knowsOrigin_of_none rfl⟩
  | givesUp hidle hroom hlast hoverdue =>
    exact ⟨hq.keep rfl hgrow rfl rfl, knowsOrigin_of_none rfl⟩

/-- A section of an acquisition keeps the origin of every connection known. -/
theorem Section.origins (h : a.Section now p l a' p' l')
    (hp : p.KnowsOrigins asked taken l.openings) (ha : a.KnowsOrigin p asked taken l.openings)
    (hasked : asked a.username a.password) (hnodup : p.active.Nodup)
    (htaken : ∀ slot ∈ p.active, slot ∉ p'.active → taken slot)
    (hgrow : l.openings <+: l'.openings) :
    p'.KnowsOrigins asked taken l'.openings ∧ a'.KnowsOrigin p' asked taken l'.openings := by
  have hsame {q : Pool} (hsettings : q.settings = p.settings) (hidle : q.idle = p.idle)
      (hactive : q.active = p.active) : q.KnowsOrigins asked taken l'.openings :=
    hp.keep hsettings hgrow hidle hactive
  have hstays {slot : Slot} {generation : Nat} {stage : Stage}
      (hcandidate : a.candidate? = some ⟨slot, generation, stage⟩) (stage' : Stage) :
      ∀ c ∈ some (⟨slot, generation, stage'⟩ : Candidate), c.generation = p.generation →
        p.StemsFrom asked taken l'.openings c.slot.physical fun username password =>
          username = a.username ∧ password = a.password := by
    rintro c ⟨⟩ hgeneration
    exact (ha _ hcandidate hgeneration).grow rfl hgrow
  cases h with
  | looks hturn hlooks =>
    obtain ⟨⟨husername, hpassword⟩, hidle, hactive, hsettings, hgeneration⟩ := hturn.keeps
    refine hlooks.origins ?_ (husername ▸ hpassword ▸ hasked) (hactive ▸ hnodup)
      (hactive ▸ htaken) hgrow
    exact hp.keep hsettings (List.prefix_refl _) hidle hactive
  | interrupted hphase hepoch => exact ⟨hsame rfl rfl rfl, knowsOrigin_of_none rfl⟩
  | passes hphase htest | failsTest hphase htest | finishes hphase =>
    refine ⟨hsame rfl rfl rfl, ?_⟩
    exact hstays (by rw [candidate?, hphase]) _
  | @handsOut slot hphase =>
    refine ⟨⟨(hsame rfl rfl rfl).idle, ?_⟩, knowsOrigin_of_none rfl⟩
    intro s hs
    rcases List.mem_append.mp hs with hs | hs
    · exact (hp.active s hs).grow rfl hgrow
    -- The fingerprint of the slot becomes that of what the acquisition asked for.
    · obtain rfl := List.mem_singleton.mp hs
      have hslot := ha ⟨slot, p.generation, .tested true⟩ (by rw [candidate?, hphase]; rfl) rfl
      refine hslot.imp rfl hgrow fun username password _ hlike => .inl ?_
      rw [hlike.1, hlike.2]
      rfl
  | rejects hphase hbad hgood => exact ⟨hsame rfl rfl rfl, knowsOrigin_of_none rfl⟩
  | closes hphase => exact ⟨hsame rfl rfl rfl, knowsOrigin_of_none rfl⟩
  | despairs hphase => exact ⟨hsame rfl rfl rfl, knowsOrigin_of_none rfl⟩

end Acquisition

theorem Acquisition.KnowsOrigin.grow {a : Acquisition} {p p' : Pool}
    {asked : Option String → Option String → Prop} {taken : Slot → Prop}
    {openings openings' : List Opening} (h : a.KnowsOrigin p asked taken openings)
    (hsettings : p'.settings = p.settings) (hgeneration : p'.generation = p.generation)
    (hgrow : openings <+: openings') : a.KnowsOrigin p' asked taken openings' :=
  fun c hc hnow => (h c hc (hnow.trans hgeneration)).grow hsettings hgrow

/-- A return keeps the origin of every connection known. -/
theorem Pool.Return.origins [Server ω] {now : Instant} {wrapper : Nat} {p p' : Pool}
    {l l' : Ledger ω} {asked : Option String → Option String → Prop} {taken : Slot → Prop}
    (h : p.Return now wrapper l p' l') (hp : p.KnowsOrigins asked taken l.openings)
    (hgrow : l.openings <+: l'.openings) : p'.KnowsOrigins asked taken l'.openings := by
  cases h with
  | late hnone => exact hp.keep rfl hgrow rfl rfl
  | fails hfind hactive hcheck =>
    exact hp.shrink rfl hgrow (fun _ hs => hs) (subset_of_removed hactive)
  | closes hfind hactive hcheck =>
    exact hp.shrink rfl hgrow (fun _ hs => hs) (subset_of_removed hactive)
  | @keeps slot before after time w' hfind hactive hcheck hroom hfingerprint =>
    have hslot : slot ∈ p.active := hactive ▸ List.mem_append_right _ List.mem_cons_self
    refine ⟨?_, fun s hs => (hp.active s (subset_of_removed hactive hs)).grow rfl hgrow⟩
    intro s hs
    rcases List.mem_append.mp hs with hs | hs
    · exact (hp.idle s hs).grow rfl hgrow
    · obtain rfl := List.mem_singleton.mp hs
      refine (hp.active slot hslot).imp rfl hgrow fun username password _ hlike => ?_
      exact .inr (.inl (hlike.trans hfingerprint))

namespace Scene

structure KnowsOrigins (s : Scene ω) (asked : Option String → Option String → Prop)
    (taken : Slot → Prop) : Prop where
  pool : s.pool.KnowsOrigins asked taken s.ledger.openings
  checked : ∀ a ∈ s.acquisitions, a.KnowsOrigin s.pool asked taken s.ledger.openings
  asked : ∀ a ∈ s.acquisitions, asked a.username a.password

variable {s s' : Scene ω} {asked : Option String → Option String → Prop} {taken : Slot → Prop}

theorem KnowsOrigins.frame (h : s.KnowsOrigins asked taken)
    (hacquisitions : s'.acquisitions = s.acquisitions)
    (hsettings : s'.pool.settings = s.pool.settings)
    (hgeneration : s'.pool.generation = s.pool.generation)
    (hgrow : s.ledger.openings <+: s'.ledger.openings)
    (hpool : s'.pool.KnowsOrigins asked taken s'.ledger.openings) :
    s'.KnowsOrigins asked taken where
  pool := hpool
  checked := by
    rw [hacquisitions]
    exact fun a ha => (h.checked a ha).grow hsettings hgeneration hgrow
  asked := by
    rw [hacquisitions]
    exact h.asked

/-- Nothing is idle or in use after everything was torn down, and every candidate is out of date. -/
theorem KnowsOrigins.tearDown (h : s.KnowsOrigins asked taken) (hf : s.inventory.Fits) {p : Pool}
    (hgeneration : p.generation = s.pool.generation) :
    (s.tearDown p).KnowsOrigins asked taken := by
  unfold Scene.tearDown
  rw [Pool.tearDown_eq]
  refine ⟨⟨?_, ?_⟩, ?_, h.asked⟩
  · exact fun slot hslot => absurd hslot List.not_mem_nil
  · exact fun slot hslot => absurd hslot List.not_mem_nil
  · intro a ha c hc hnow
    have hpast : c.generation ≤ s.pool.generation :=
      hf.past c (List.mem_filterMap.mpr ⟨a, ha, hc⟩)
    have hnew : c.generation = p.generation + 1 := hnow
    omega

variable [Server ω] [Clock ω]

/-- Every event keeps the origin of every connection known. -/
theorem KnowsOrigins.step (h : s.KnowsOrigins asked taken) (hf : s.inventory.Fits)
    (hs : s.inventory.Separate) {e : Event ω}
    (hasked : ∀ username password, e = .acquire username password → asked username password)
    (htaken : ∀ slot ∈ s.reclaimed e, taken slot) : (s.step e).KnowsOrigins asked taken := by
  have hgrow : s.ledger.openings <+: (s.step e).ledger.openings :=
    (s.transfer_step e).openings_grow
  have hmoves := s.moves_step e
  generalize hstep : s.step e = s' at hmoves hgrow ⊢
  cases hmoves with
  | @begins username password hthere =>
    refine ⟨h.pool, ?_, ?_⟩
    · intro a ha
      rcases List.mem_append.mp ha with ha | ha
      · exact h.checked a ha
      -- An acquisition that begins has no candidate.
      · rw [List.mem_singleton.mp ha]
        exact Acquisition.knowsOrigin_of_none rfl
    · intro a ha
      rcases List.mem_append.mp ha with ha | ha
      · exact h.asked a ha
      · rw [List.mem_singleton.mp ha]
        exact hasked username password rfl
  | @proceeds i a a' p' l l' hget hover hsleep hsame hsection =>
    have ha : a ∈ s.acquisitions := List.mem_of_getElem? hget
    have hread : (Clock.read l).2.openings = s.ledger.openings := by
      unfold Acquisition.sleep? at hsleep
      split at hsleep
      · obtain ⟨t, -, rfl⟩ := Option.map_eq_some_iff.mp hsleep
        rfl
      · rw [← Option.some.inj hsleep]
        rfl
    have hadvances := a.advances_step l s.pool hover
    rw [hsame] at hadvances
    have hlost : ∀ slot ∈ s.pool.active, slot ∉ p'.active → taken slot := by
      intro slot hslot hgone
      refine htaken slot (List.mem_filter.mpr ⟨hslot, ?_⟩)
      have hpool : (s.proceed i).pool = p' := by
        rw [show s.proceed i = _ from hstep, pool_put]
      rw [hpool]
      exact decide_eq_true hgone
    rw [ledger_put] at hgrow
    rw [← hread] at hgrow
    obtain ⟨hp', ha'⟩ := hsection.origins (hread ▸ h.pool) (hread ▸ h.checked a ha) (h.asked a ha)
      hs.nodup_active.of_map hlost hgrow
    refine ⟨?_, ?_, ?_⟩
    · rw [pool_put, ledger_put]
      exact hp'
    · rw [pool_put, ledger_put]
      intro b hb
      rcases mem_acquisitions_put _ hb with rfl | hb
      · exact ha'
      · exact (h.checked b hb).grow hadvances.settings hadvances.generation (hread ▸ hgrow)
    · intro b hb
      rcases mem_acquisitions_put _ hb with rfl | hb
      · rw [hadvances.username, hadvances.password]
        exact h.asked a ha
      · exact h.asked b hb
  | returns hget hfree hfirst hthere hgiveBack hreturn =>
    refine h.frame rfl ?_ ?_ hgrow (hreturn.origins h.pool hgrow)
    · cases hreturn <;> rfl
    · cases hreturn <;> rfl
  | closesAll dropped htears hconfig => exact h.tearDown hf rfl
  | reconfigures htears => exact h.tearDown hf rfl
  | _ => exact h.frame rfl rfl rfl hgrow (h.pool.keep rfl hgrow rfl rfl)

def reclaimedIn (s : Scene ω) : List (Event ω) → List Slot
  | [] => []
  | e :: events => s.reclaimed e ++ (s.step e).reclaimedIn events

theorem KnowsOrigins.run (h : s.KnowsOrigins asked taken) (hf : s.inventory.Fits)
    (hs : s.inventory.Separate) (events : List (Event ω))
    (hasked : ∀ username password, .acquire username password ∈ events → asked username password)
    (htaken : ∀ slot ∈ s.reclaimedIn events, taken slot) :
    (s.run events).KnowsOrigins asked taken := by
  unfold Scene.run
  induction events generalizing s with
  | nil => exact h
  | cons e events ih =>
    have htransfer := s.transfer_step e
    have hstep : (s.step e).KnowsOrigins asked taken := by
      refine h.step hf hs ?_ fun slot hslot => htaken slot (List.mem_append_left _ hslot)
      rintro username password rfl
      exact hasked username password List.mem_cons_self
    refine ih hstep (hf.transfer htransfer) (hs.transfer htransfer) ?_ ?_
    · exact fun username password hmem =>
        hasked username password (List.mem_cons_of_mem _ hmem)
    · exact fun slot hslot => htaken slot (List.mem_append_right _ hslot)

/-- What is idle was opened under the pool's settings for credentials that somebody asked for. If
the fingerprint tells the pool's own credentials from the others that were asked for, they are the
pool's own, unless the connection was taken from a holder who had asked with others. -/
theorem run_idles_own (settings : ConnectionSettings) (config : PoolConfig) (server : ω)
    (events : List (Event ω)) :
    let s := (start settings config server).run events
    (∀ username password, .acquire username password ∈ events →
      s.pool.fingerprintOf username password = s.pool.fingerprint →
        username = s.pool.settings.username ∧ password = s.pool.settings.password) →
    ∀ slot ∈ s.pool.idle, ∃ username password, .acquire username password ∈ events ∧
      IsOpenedFor s.pool.settings username password slot.physical.connection s.ledger.openings ∧
      (username = s.pool.settings.username ∧ password = s.pool.settings.password ∨
        ∃ lost ∈ (start settings config server).reclaimedIn events,
          lost.physical = slot.physical ∧ lost.fingerprint ≠ s.pool.fingerprint) := by
  intro s hseparates slot hslot
  have hstart : (start settings config server).KnowsOrigins
      (fun username password => .acquire username password ∈ events)
      (· ∈ (start settings config server).reclaimedIn events) := by
    refine ⟨⟨?_, ?_⟩, ?_, ?_⟩
    · exact fun _ hnone => absurd hnone List.not_mem_nil
    · exact fun _ hnone => absurd hnone List.not_mem_nil
    · exact fun _ hnone => absurd hnone List.not_mem_nil
    · exact fun _ hnone => absurd hnone List.not_mem_nil
  have horigins := hstart.run (fits_start settings config server)
    (separate_start settings config server) events (fun _ _ h => h) fun _ h => h
  obtain ⟨username, password, hasked, hopened, horigin⟩ := horigins.pool.idle slot hslot
  refine ⟨username, password, hasked, hopened, ?_⟩
  rcases horigin with hown | hno | hlost
  · exact .inl (hseparates username password hasked hown)
  · exact hno.elim
  · exact .inr hlost

/-- Somebody gets a connection with other credentials than the pool's own and gives it back. Then
somebody gets one with the pool's own, and gives it back too. -/
def alternating : List (Event Willing) :=
  .acquire (some "other") (some "pw") :: List.replicate 6 (.proceed 0) ++
    .giveBack 0 :: .acquire (some "app") (some "pw") :: List.replicate 6 (.proceed 0) ++
    [.giveBack 1]

/-- The fingerprint tells the credentials apart. -/
theorem separates_alternating (username password : Option String)
    (h : .acquire username password ∈ alternating)
    (hsame : owned.pool.fingerprintOf username password = owned.pool.fingerprint) :
    username = owned.pool.settings.username ∧ password = owned.pool.settings.password := by
  have hasked : username = some "other" ∧ password = some "pw" ∨
      username = some "app" ∧ password = some "pw" := by
    simpa [alternating] using h
  rcases hasked with ⟨rfl, rfl⟩ | ⟨rfl, rfl⟩
  · exact absurd hsame (by decide)
  · exact ⟨rfl, rfl⟩

/-- Nothing was taken over, and what was kept was opened with the pool's own credentials. -/
theorem idles_own_returned :
    let s := owned.run alternating
    owned.reclaimedIn alternating = [] ∧ s.pool.idle.map (·.physical) = [⟨2, 1⟩] ∧
      ∀ slot ∈ s.pool.idle, IsOpenedFor s.pool.settings (some "app") (some "pw")
        slot.physical.connection s.ledger.openings := by
  have howned : start owned.pool.settings .standard ⟨0⟩ = owned := rfl
  have hown := run_idles_own owned.pool.settings .standard ⟨0⟩ alternating
  rw [howned] at hown
  have hnone : owned.reclaimedIn alternating = [] := by decide
  have hsettings : (owned.run alternating).pool.settings = owned.pool.settings := by decide
  refine ⟨hnone, by decide, fun slot hslot => ?_⟩
  obtain ⟨username, password, -, hopened, hpool | ⟨lost, hlost, -⟩⟩ :=
    hown (by
      unfold Pool.fingerprintOf Pool.fingerprint
      rw [hsettings]
      exact separates_alternating) slot hslot
  · rw [hpool.1, hpool.2, hsettings] at hopened
    rw [hsettings]
    exact hopened
  · exact absurd (hnone ▸ hlost) List.not_mem_nil

/-- The same without giving the first connection back, which is taken from its holder. -/
def usurping : List (Event Willing) :=
  .acquire (some "other") (some "pw") :: List.replicate 6 (.proceed 0) ++
    .acquire (some "app") (some "pw") :: List.replicate 6 (.proceed 0) ++ [.giveBack 1]

/-- A connection that was opened for somebody else is kept as the pool's own after it was taken
over. -/
theorem idles_usurped :
    let s := (start owned.pool.settings narrow.pool.config ⟨0⟩).run usurping
    s.pool.fingerprintOf (some "other") (some "pw") ≠ s.pool.fingerprint ∧
      ∃ slot ∈ s.pool.idle, ∃ o, s.ledger.openings[slot.physical.connection]? = some o ∧
        o.properties ≠ s.pool.settings.connectProperties s.pool.settings.username
          s.pool.settings.password := by
  refine ⟨by decide, ⟨3, ⟨1, 0⟩, ⟨1⟩, ⟨13⟩, ⟨13⟩, "apppw"⟩, by decide,
    ⟨0, "", [("password", "pw"), ("user", "other")]⟩, rfl, by decide⟩

end Scene
end SqlMapper
