import SqlMapper.Proofs.Pool.Identity

/-!
Whose connections pass for a pool's own when they come back. A fingerprint is the url, the name and
the password one after the other, so it does not show where one of them ends.
-/

namespace SqlMapper

namespace ConnectionSettings

/-- Names or passwords that are the same in a fingerprint: they are equal, or one is missing and the
other one is `null`. -/
def WrittenAlike (x y : Option String) : Prop :=
  x = y ∨ x.getD "null" = "null" ∧ y.getD "null" = "null"

/-- Credentials of which the name and the password run together alike: what one name has at its end,
the other credentials have at the front of their password. -/
def RunsAlike (username password username' password' : Option String) : Prop :=
  ∃ moved,
    username'.getD "null" = username.getD "null" ++ moved ∧
        password.getD "null" = moved ++ password'.getD "null" ∨
      username.getD "null" = username'.getD "null" ++ moved ∧
        password'.getD "null" = moved ++ password.getD "null"

variable {url url' : String} {username password username' password' : Option String}

theorem getD_null_eq_iff {x y : Option String} :
    x.getD "null" = y.getD "null" ↔ WrittenAlike x y := by
  constructor
  · intro h
    cases x with
    | none => exact .inr ⟨rfl, h.symm⟩
    | some a =>
      cases y with
      | none => exact .inr ⟨h, rfl⟩
      | some b => exact .inl (congrArg some h)
  · rintro (rfl | ⟨hx, hy⟩)
    · rfl
    · exact hx.trans hy.symm

/-- A change of the url alone shows in a fingerprint. -/
theorem fingerprint_eq_iff_url :
    fingerprint url username password = fingerprint url' username password ↔ url = url' := by
  rw [fingerprint, fingerprint, String.append_left_inj, String.append_left_inj]

theorem fingerprint_eq_iff_username :
    fingerprint url username password = fingerprint url username' password ↔
      WrittenAlike username username' := by
  rw [fingerprint, fingerprint, String.append_left_inj, String.append_right_inj, getD_null_eq_iff]

theorem fingerprint_eq_iff_password :
    fingerprint url username password = fingerprint url username password' ↔
      WrittenAlike password password' := by
  rw [fingerprint, fingerprint, String.append_right_inj, getD_null_eq_iff]

/-- A fingerprint together with the places where the url and the name end is enough to tell all
three texts. -/
theorem fingerprint_and_lengths_eq_iff :
    (fingerprint url username password = fingerprint url' username' password' ∧
        url.length = url'.length ∧ (username.getD "null").length = (username'.getD "null").length) ↔
      url = url' ∧ WrittenAlike username username' ∧ WrittenAlike password password' := by
  rw [← getD_null_eq_iff, ← getD_null_eq_iff]
  constructor
  · rintro ⟨hsame, hurl, hname⟩
    have hlists := congrArg String.toList hsame
    simp only [fingerprint, String.toList_append, List.append_assoc] at hlists
    rw [← String.length_toList, ← String.length_toList] at hurl hname
    -- Where one text ends on both sides, the rest begins on both sides.
    obtain ⟨hurls, hrest⟩ := List.append_inj hlists hurl
    obtain ⟨hnames, hpasswords⟩ := List.append_inj hrest hname
    exact ⟨String.toList_inj.mp hurls, String.toList_inj.mp hnames, String.toList_inj.mp hpasswords⟩
  · rintro ⟨rfl, hname, hpassword⟩
    exact ⟨by rw [fingerprint, fingerprint, hname, hpassword], rfl, by rw [hname]⟩

/-- Two pairs of texts are the same when put together exactly if one of them has its seam moved. -/
theorem append_eq_append_iff_moved {s t u v : String} : s ++ t = u ++ v ↔ ∃ moved,
    u = s ++ moved ∧ t = moved ++ v ∨ s = u ++ moved ∧ v = moved ++ t := by
  constructor
  · intro h
    have hlists := congrArg String.toList h
    rw [String.toList_append, String.toList_append] at hlists
    rcases List.append_eq_append_iff.mp hlists with ⟨moved, hu, ht⟩ | ⟨moved, hs, hv⟩
    · refine ⟨String.ofList moved, .inl ⟨String.toList_inj.mp ?_, String.toList_inj.mp ?_⟩⟩
      · rw [String.toList_append, String.toList_ofList, hu]
      · rw [String.toList_append, String.toList_ofList, ht]
    · refine ⟨String.ofList moved, .inr ⟨String.toList_inj.mp ?_, String.toList_inj.mp ?_⟩⟩
      · rw [String.toList_append, String.toList_ofList, hs]
      · rw [String.toList_append, String.toList_ofList, hv]
  · rintro ⟨moved, ⟨rfl, rfl⟩ | ⟨rfl, rfl⟩⟩
    · exact String.append_assoc.symm
    · exact String.append_assoc

/-- Under one url a fingerprint shows how the name and the password run together, and no more. -/
theorem fingerprint_eq_iff_runsAlike :
    fingerprint url username password = fingerprint url username' password' ↔
      RunsAlike username password username' password' := by
  rw [fingerprint, fingerprint, String.append_assoc, String.append_assoc, String.append_right_inj]
  exact append_eq_append_iff_moved

end ConnectionSettings

variable {ω : Type}

/-- What a section does to the slots: none becomes idle, and if one comes into use, it is handed out
with the fingerprint of what was asked for. -/
theorem Acquisition.Section.stamps [Server ω] {now : Instant} {a a' : Acquisition} {p p' : Pool}
    {w w' : ω} (h : a.Section now p w a' p' w') :
    p'.settings = p.settings ∧ p'.idle ⊆ p.idle ∧
      ((∀ h, a'.result? ≠ some (.ok h)) ∧ p'.active ⊆ p.active ∨
        ∃ slot, a'.result? = some (.ok slot.handle) ∧ p'.active = p.active ++ [slot] ∧
          slot.fingerprint = p.fingerprintOf a.username a.password) := by
  cases h with
  | looks hturn hlooks =>
    obtain ⟨-, hidle, hactive, hsettings, -⟩ := hturn.keeps
    rw [← hsettings, ← hidle, ← hactive]
    cases hlooks with
    | picks hfirst =>
      exact ⟨rfl, hfirst ▸ List.subset_cons_self _ _, .inl ⟨nofun, List.Subset.refl _⟩⟩
    | reclaims hnone hroom hfirst =>
      exact ⟨rfl, List.Subset.refl _, .inl ⟨nofun, hfirst ▸ List.subset_cons_self _ _⟩⟩
    | _ => exact ⟨rfl, List.Subset.refl _, .inl ⟨nofun, List.Subset.refl _⟩⟩
  | handsOut => exact ⟨rfl, List.Subset.refl _, .inr ⟨_, rfl, rfl, rfl⟩⟩
  | _ => exact ⟨rfl, List.Subset.refl _, .inl ⟨nofun, List.Subset.refl _⟩⟩

/-- What a return does to the slots: at most one becomes idle, which had the wrapper that came back
and the pool's own fingerprint. -/
theorem Pool.Return.stamps [Server ω] {now : Instant} {wrapper : Nat} {p p' : Pool} {w w' : ω}
    (h : p.Return now wrapper w p' w') :
    p'.settings = p.settings ∧ p'.active ⊆ p.active ∧
      ∀ slot ∈ p'.idle, slot ∈ p.idle ∨ ∃ old ∈ p.active, old.wrapper = wrapper ∧
        old.physical = slot.physical ∧ old.fingerprint = p.fingerprint := by
  cases h with
  | late hnone => exact ⟨rfl, List.Subset.refl _, fun _ hs => .inl hs⟩
  | fails hfind hactive hcheck => exact ⟨rfl, subset_of_removed hactive, fun _ hs => .inl hs⟩
  | closes hfind hactive hcheck => exact ⟨rfl, subset_of_removed hactive, fun _ hs => .inl hs⟩
  | @keeps old before after time w' hfind hactive hcheck hroom hfingerprint =>
    refine ⟨rfl, subset_of_removed hactive, fun slot hslot => ?_⟩
    rcases List.mem_append.mp hslot with hidle | hkept
    · exact .inl hidle
    · obtain rfl := List.mem_singleton.mp hkept
      have hwrapper : old.wrapper = wrapper := by simpa using List.find?_some hfind
      exact .inr ⟨old, List.mem_of_find?_eq_some hfind, hwrapper, rfl, hfingerprint⟩

namespace Scene

open ConnectionSettings (fingerprint WrittenAlike RunsAlike)

def Stamped (s : Scene ω) (asked : List (Option String × Option String)) : Prop :=
  List.Forall₂ (fun wrapper credentials => ∀ slot ∈ s.pool.active, slot.wrapper = wrapper →
    slot.fingerprint = s.pool.fingerprintOf credentials.1 credentials.2)
    (s.handles.map (·.wrapper)) asked

variable {s s' : Scene ω} {asked : List (Option String × Option String)}

theorem Stamped.frame (h : s.Stamped asked)
    (hhandles : s'.handles.map (·.wrapper) = s.handles.map (·.wrapper))
    (hactive : ∀ slot ∈ s'.pool.active, slot ∈ s.pool.active ∧ s'.pool.settings = s.pool.settings) :
    s'.Stamped asked := by
  rw [Stamped, hhandles]
  refine h.imp fun wrapper credentials hstamp slot hslot hwrapper => ?_
  obtain ⟨hold, hsettings⟩ := hactive slot hslot
  rw [Pool.fingerprintOf, hsettings]
  exact hstamp slot hold hwrapper

theorem Stamped.length_eq (h : s.Stamped asked) : asked.length = s.handles.length := by
  rw [← List.Forall₂.length_eq h, List.length_map]

theorem Stamped.getElem? (h : s.Stamped asked) {j : Nat} {hd : Handle}
    (hget : s.handles[j]? = some hd) :
    ∃ username password, asked[j]? = some (username, password) ∧
      ∀ slot ∈ s.pool.active, slot.wrapper = hd.wrapper →
        slot.fingerprint = s.pool.fingerprintOf username password := by
  obtain ⟨hj, rfl⟩ := List.getElem?_eq_some_iff.mp hget
  have hj' : j < asked.length := h.length_eq ▸ hj
  have hstamp := List.Forall₂.get h ((List.length_map _).symm ▸ hj) hj'
  refine ⟨asked[j].1, asked[j].2, List.getElem?_eq_getElem hj', fun slot hslot hwrapper => ?_⟩
  refine hstamp slot hslot ?_
  rw [List.get_eq_getElem, List.getElem_map, hwrapper]

theorem Stamped.handOut (h : s.Stamped asked) {slot : Slot}
    {username password : Option String} (hhandles : s'.handles = s.handles ++ [slot.handle])
    (hsettings : s'.pool.settings = s.pool.settings)
    (hactive : s'.pool.active = s.pool.active ++ [slot])
    (hfingerprint : slot.fingerprint = s.pool.fingerprintOf username password)
    (hs : s'.inventory.Separate) (hh : s'.inventory.Holds) :
    s'.Stamped (asked ++ [(username, password)]) := by
  have hwrappers := nodup_handles hh
  rw [hhandles, List.map_append, List.nodup_append] at hwrappers
  have hslots : (s'.pool.active.map (·.wrapper)).Nodup := hs.nodup_active
  rw [hactive, List.map_append, List.nodup_append] at hslots
  -- No earlier holder has the wrapper, and no other slot in use.
  have hnew : ∀ wrapper ∈ s.handles.map (·.wrapper), wrapper ≠ slot.wrapper :=
    fun wrapper hmem => hwrappers.2.2 wrapper hmem _ (List.mem_singleton_self _)
  have hfree : ∀ old ∈ s.pool.active, old.wrapper ≠ slot.wrapper :=
    fun old hold => hslots.2.2 _ (List.mem_map_of_mem hold) _ (List.mem_singleton_self _)
  rw [Stamped, hhandles, List.map_append, hactive]
  unfold Pool.fingerprintOf
  rw [hsettings]
  refine List.rel_append ?_ (.cons ?_ .nil)
  · refine ((List.forall₂_and_left _ _).mpr ⟨hnew, h⟩).imp ?_
    rintro wrapper credentials ⟨hother, hstamp⟩ holder hholder hwrapper
    rcases List.mem_append.mp hholder with hold | hlast
    · exact hstamp holder hold hwrapper
    · obtain rfl := List.mem_singleton.mp hlast
      exact absurd hwrapper.symm hother
  · intro holder hholder hwrapper
    rcases List.mem_append.mp hholder with hold | hlast
    · exact absurd hwrapper (hfree holder hold)
    · rw [List.mem_singleton.mp hlast]
      exact hfingerprint

theorem slots_tearDown (s : Scene ω) (p : Pool) :
    (s.tearDown p).pool.active = [] ∧ (s.tearDown p).pool.idle = [] := by
  unfold tearDown
  rw [Pool.tearDown_eq]
  exact ⟨rfl, rfl⟩

theorem handles_put_of_ne (s : Scene ω) (i : Nat) {a : Acquisition}
    (h : ∀ hd, a.result? ≠ some (.ok hd)) : (s.put i a).handles = s.handles := by
  unfold put
  split
  · rfl
  · rfl
  · exact absurd ‹_› (h _)

theorem handles_put_of_ok (s : Scene ω) (i : Nat) {a : Acquisition} {hd : Handle}
    (h : a.result? = some (.ok hd)) : (s.put i a).handles = s.handles ++ [hd] := by
  unfold put
  rw [h]

variable [Server ω] [Clock ω]

def granted (s : Scene ω) : Event ω → List (Option String × Option String)
  | .proceed i =>
    if s.handles.length < (s.proceed i).handles.length then
      (s.acquisitions[i]?.map fun a => (a.username, a.password)).toList
    else []
  | _ => []

def grantedIn (s : Scene ω) : List (Event ω) → List (Option String × Option String)
  | [] => []
  | e :: events => s.granted e ++ (s.step e).grantedIn events

theorem granted_of_ne {e : Event ω} (h : ∀ i, e ≠ .proceed i) : s.granted e = [] := by
  cases e with
  | proceed i => exact absurd rfl (h i)
  | _ => rfl

theorem granted_of_tearsDown {e : Event ω} (h : s.tearsDown e = true) : s.granted e = [] := by
  refine granted_of_ne ?_
  rintro i rfl
  exact absurd h (by simp [tearsDown])

theorem granted_of_handles {i : Nat} (h : (s.step (.proceed i)).handles = s.handles) :
    s.granted (.proceed i) = [] :=
  if_neg (Nat.not_lt.mpr (congrArg List.length h).le)

theorem granted_of_handOut {i : Nat} {a : Acquisition} {h : Handle}
    (hget : s.acquisitions[i]? = some a)
    (hnew : (s.step (.proceed i)).handles = s.handles ++ [h]) :
    s.granted (.proceed i) = [(a.username, a.password)] := by
  have hmore : s.handles.length < (s.proceed i).handles.length := by
    rw [show (s.proceed i).handles = _ from hnew, List.length_append]
    exact Nat.lt_succ_self _
  rw [granted, if_pos hmore, hget]
  rfl

/-- Every event leaves a slot in use with the fingerprint of what its holder asked for. -/
theorem Stamped.step (h : s.Stamped asked) (hs : s.inventory.Separate) (hh : s.inventory.Holds)
    (e : Event ω) : (s.step e).Stamped (asked ++ s.granted e) := by
  have hs' : (s.step e).inventory.Separate := hs.transfer (s.transfer_step e)
  have hh' : (s.step e).inventory.Holds := hh.transfer hs (s.transfer_step e)
  have hmoves := s.moves_step e
  generalize hstep : s.step e = s' at hmoves hs' hh' ⊢
  -- Without a hand-out there are the same wrappers, and slots only go out of use.
  have hnobody (hgranted : s.granted e = [])
      (hhandles : s'.handles.map (·.wrapper) = s.handles.map (·.wrapper))
      (hactive : ∀ slot ∈ s'.pool.active,
        slot ∈ s.pool.active ∧ s'.pool.settings = s.pool.settings) :
      s'.Stamped (asked ++ s.granted e) := by
    rw [hgranted, List.append_nil]
    exact h.frame hhandles hactive
  cases hmoves with
  | stays hwaits =>
    exact hnobody (granted_of_handles (congrArg Scene.handles hstep)) rfl fun _ hs => ⟨hs, rfl⟩
  | @proceeds i a a' p' l l' hget hover hsleep hsame hsection =>
    obtain ⟨hsettings, -, ⟨hresult, hactive⟩ | ⟨slot, hresult, hactive, hfingerprint⟩⟩ :=
      hsection.stamps
    · have hhandles := handles_put_of_ne { s with pool := p', ledger := l' } i hresult
      refine hnobody (granted_of_handles ?_) (congrArg _ hhandles) ?_
      · rw [hstep]
        exact hhandles
      · rw [pool_put]
        exact fun slot hslot => ⟨hactive hslot, hsettings⟩
    · have hhandles := handles_put_of_ok { s with pool := p', ledger := l' } i hresult
      rw [granted_of_handOut hget ((congrArg Scene.handles hstep).trans hhandles)]
      refine h.handOut hhandles ?_ ?_ hfingerprint hs' hh'
      · rw [pool_put]
        exact hsettings
      · rw [pool_put]
        exact hactive
  | returns hget hfree hfirst hthere hgiveBack hreturn =>
    obtain ⟨hsettings, hactive, -⟩ := hreturn.stamps
    exact hnobody rfl (map_set_returned hget rfl) fun slot hslot => ⟨hactive hslot, hsettings⟩
  | outlives hget hgone =>
    exact hnobody rfl (map_set_returned hget rfl) fun _ hs => ⟨hs, rfl⟩
  | closesAll dropped htears hconfig =>
    refine hnobody (granted_of_tearsDown htears) rfl fun slot hslot => ?_
    rw [(s.slots_tearDown _).1] at hslot
    exact absurd hslot List.not_mem_nil
  | reconfigures htears =>
    refine hnobody (granted_of_tearsDown htears) rfl fun slot hslot => ?_
    rw [(s.slots_tearDown _).1] at hslot
    exact absurd hslot List.not_mem_nil
  | nothing hproceed => exact hnobody (granted_of_ne hproceed) rfl fun _ hs => ⟨hs, rfl⟩
  | _ => exact hnobody rfl rfl fun _ hs => ⟨hs, rfl⟩

/-- What becomes idle was given back by a holder, with the pool's own fingerprint. -/
theorem mem_idle_step {e : Event ω} {slot : Slot} (h : slot ∈ (s.step e).pool.idle) :
    slot ∈ s.pool.idle ∨ ∃ j hd, e = .giveBack j ∧ s.handles[j]? = some hd ∧
      ∃ old ∈ s.pool.active, old.wrapper = hd.wrapper ∧ old.physical = slot.physical ∧
        old.fingerprint = s.pool.fingerprint := by
  have hmoves := s.moves_step e
  generalize s.step e = s' at hmoves h
  -- A section takes idle slots, and only a return puts one there.
  cases hmoves with
  | proceeds hget hover hsleep hsame hsection =>
    rw [pool_put] at h
    exact .inl (hsection.stamps.2.1 h)
  | @returns j hd p' l' hget hfree hfirst hthere hgiveBack hreturn =>
    exact (hreturn.stamps.2.2 slot h).imp_right fun hold => ⟨j, hd, rfl, hget, hold⟩
  | closesAll dropped htears hconfig =>
    rw [(s.slots_tearDown _).2] at h
    exact absurd h List.not_mem_nil
  | reconfigures htears =>
    rw [(s.slots_tearDown _).2] at h
    exact absurd h List.not_mem_nil
  | _ => exact .inl h

theorem Stamped.run (h : s.Stamped asked) (hs : s.inventory.Separate) (hh : s.inventory.Holds)
    (events : List (Event ω)) : (s.run events).Stamped (asked ++ s.grantedIn events) := by
  unfold Scene.run
  -- Who holds what goes along, so that every hand-out has a wrapper of its own.
  induction events generalizing s asked with
  | nil => exact (List.append_nil asked).symm ▸ h
  | cons e events ih =>
    have htransfer := s.transfer_step e
    rw [grantedIn, ← List.append_assoc]
    exact ih (h.step hs hh e) (hs.transfer htransfer) (hh.transfer hs htransfer)

theorem stamped_run (settings : ConnectionSettings) (config : PoolConfig) (server : ω)
    (events : List (Event ω)) :
    ((start settings config server).run events).Stamped
      ((start settings config server).grantedIn events) := by
  have hstart : (start settings config server).Stamped [] := by
    unfold Stamped
    exact .nil
  exact hstart.run (separate_start settings config server) (holds_start settings config server)
    events

/-- A fingerprint shows every change of the url, the name or the password alone, but for a missing
name or password and `null`. It tells all three together apart only with where the url and the name
end; under one url it is the same exactly for names and passwords that run together alike. What
becomes idle was given back by a holder who had asked with credentials that run together like the
pool's own. -/
theorem run_keeps_lookalikes (settings : ConnectionSettings) (config : PoolConfig) (server : ω)
    (events : List (Event ω)) (e : Event ω) :
    let s := (start settings config server).run events
    let asked := (start settings config server).grantedIn events
    (∀ url username password url' username' password',
      (fingerprint url username password = fingerprint url' username password ↔ url = url') ∧
      (fingerprint url username password = fingerprint url username' password ↔
        WrittenAlike username username') ∧
      (fingerprint url username password = fingerprint url username password' ↔
        WrittenAlike password password') ∧
      ((fingerprint url username password = fingerprint url' username' password' ∧
          url.length = url'.length ∧
          (username.getD "null").length = (username'.getD "null").length) ↔
        url = url' ∧ WrittenAlike username username' ∧ WrittenAlike password password') ∧
      (fingerprint url username password = fingerprint url username' password' ↔
        RunsAlike username password username' password')) ∧
    asked.length = s.handles.length ∧
    ∀ slot ∈ (s.step e).pool.idle, slot ∈ s.pool.idle ∨
      ∃ j h username password, e = .giveBack j ∧ s.handles[j]? = some h ∧
        asked[j]? = some (username, password) ∧ h.physical = slot.physical ∧
        RunsAlike username password s.pool.settings.username s.pool.settings.password := by
  intro s asked
  have hstamped : s.Stamped asked := stamped_run settings config server events
  obtain ⟨-, hholds⟩ := holds_run settings config server events
  refine ⟨?_, hstamped.length_eq, ?_⟩
  · intro url username password url' username' password'
    exact ⟨ConnectionSettings.fingerprint_eq_iff_url,
      ConnectionSettings.fingerprint_eq_iff_username,
      ConnectionSettings.fingerprint_eq_iff_password,
      ConnectionSettings.fingerprint_and_lengths_eq_iff,
      ConnectionSettings.fingerprint_eq_iff_runsAlike⟩
  intro slot hslot
  refine (mem_idle_step hslot).imp_right ?_
  rintro ⟨j, h, rfl, hget, old, hold, hwrapper, hphysical, hfingerprint⟩
  have hmem : (h.wrapper, h.physical) ∈ s.inventory.handles :=
    List.mem_map_of_mem (List.mem_of_getElem? hget)
  have hsame : old.physical = h.physical := hholds.active_eq _ hmem old hold hwrapper
  obtain ⟨username, password, hasked, hstamp⟩ := hstamped.getElem? hget
  refine ⟨j, h, username, password, rfl, hget, hasked, hsame.symm.trans hphysical, ?_⟩
  exact ConnectionSettings.fingerprint_eq_iff_runsAlike.mp
    ((hstamp old hold hwrapper).symm.trans hfingerprint)

/-- Somebody gets a connection with a name that is one letter shorter than the pool's own, and a
password that begins with this letter. -/
def imitating : List (Event Willing) :=
  .acquire (some "ap") (some "ppw") :: List.replicate 6 (.proceed 0)

/-- The connection is kept, and was asked for with credentials that run together like the pool's
own. -/
theorem keeps_lookalikes_imitated :
    let s := owned.run imitating
    s.pool.idle = [] ∧ ∃ slot ∈ (s.step (.giveBack 0)).pool.idle, ∃ h username password,
      s.handles[0]? = some h ∧ (owned.grantedIn imitating)[0]? = some (username, password) ∧
        h.physical = slot.physical ∧
        RunsAlike username password s.pool.settings.username s.pool.settings.password := by
  have howned : start owned.pool.settings .standard ⟨0⟩ = owned := rfl
  have hkeeps := run_keeps_lookalikes owned.pool.settings .standard ⟨0⟩ imitating (.giveBack 0)
  rw [howned] at hkeeps
  have hnone : (owned.run imitating).pool.idle = [] := by decide
  let slot : Slot := ⟨2, ⟨1, 0⟩, ⟨1⟩, ⟨6⟩, ⟨6⟩, "apppw"⟩
  have hslot : slot ∈ ((owned.run imitating).step (.giveBack 0)).pool.idle := by decide
  refine ⟨hnone, slot, hslot, ?_⟩
  rcases hkeeps.2.2 slot hslot with hold | ⟨j, h, username, password, ⟨⟩, hget, hrest⟩
  · exact absurd (hnone ▸ hold) List.not_mem_nil
  · exact ⟨h, username, password, hget, hrest⟩

/-- Different credentials have the same fingerprint, and a connection that was opened and asked for
with other credentials than the pool's own is kept. -/
theorem keeps_imitated :
    let s := owned.run imitating
    fingerprint "" (some "ap") (some "ppw") = fingerprint "" (some "app") (some "pw") ∧
      fingerprint "" none (some "pw") = fingerprint "" (some "null") (some "pw") ∧
      owned.grantedIn imitating = [(some "ap", some "ppw")] ∧
      ∃ slot ∈ (s.step (.giveBack 0)).pool.idle, ∃ o,
        s.ledger.openings[slot.physical.connection]? = some o ∧
          o.properties ≠ s.pool.settings.connectProperties s.pool.settings.username
            s.pool.settings.password := by
  refine ⟨by decide, by decide, by decide, ⟨2, ⟨1, 0⟩, ⟨1⟩, ⟨6⟩, ⟨6⟩, "apppw"⟩, by decide,
    ⟨0, "", [("password", "ppw"), ("user", "ap")]⟩, rfl, by decide⟩

end Scene
end SqlMapper
