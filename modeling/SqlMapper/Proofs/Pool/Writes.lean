import SqlMapper.Pool.Return
import SqlMapper.Proofs.Ledger

/-!
What the steps of a pool on one physical connection leave in the ledger. A connection that passes
its tests was neither closed nor left with an uncommitted statement.
-/

namespace SqlMapper

open Connection

variable {ω : Type} {α β : Type} {n : Nat}

namespace Ledger

structure Writes (n : Nat) (es : List Entry) (l l' : Ledger ω) : Prop where
  entries : l'.entries = es ++ l.entries
  openings : l'.openings = l.openings
  about : IsAbout n es

theorem Writes.trans {es es' : List Entry} {l l' l'' : Ledger ω} (h : Writes n es l l')
    (h' : Writes n es' l' l'') : Writes n (es' ++ es) l l'' where
  entries := by rw [h'.entries, h.entries, List.append_assoc]
  openings := h'.openings.trans h.openings
  about := isAbout_append h'.about h.about

def Records (n : Nat) (step : StateM (Ledger ω) α) (post : α → List Entry → Prop) : Prop :=
  ∀ l, ∃ es, Writes n es l (step l).2 ∧ post (step l).1 es

theorem records_pure (a : α) :
    Records n (pure a : StateM (Ledger ω) α) (fun b es => b = a ∧ es = []) :=
  fun _ => ⟨[], ⟨rfl, rfl, by simp [IsAbout]⟩, rfl, rfl⟩

theorem Records.mono {step : StateM (Ledger ω) α} {post post' : α → List Entry → Prop}
    (h : Records n step post) (hp : ∀ a es, IsAbout n es → post a es → post' a es) :
    Records n step post' := by
  intro l
  obtain ⟨es, hw, ha⟩ := h l
  exact ⟨es, hw, hp _ _ hw.about ha⟩

theorem records_bind {step : StateM (Ledger ω) α} {next : α → StateM (Ledger ω) β}
    {post : α → List Entry → Prop} {post' : α → β → List Entry → Prop}
    (h : Records n step post) (hn : ∀ a, Records n (next a) (post' a)) :
    Records n (step >>= next)
      (fun b es => ∃ a es₁ es₂, es = es₂ ++ es₁ ∧ post a es₁ ∧ post' a b es₂) := by
  intro l
  obtain ⟨es₁, h₁, ha⟩ := h l
  obtain ⟨es₂, h₂, hb⟩ := hn (step l).1 (step l).2
  exact ⟨es₂ ++ es₁, h₁.trans h₂, _, es₁, es₂, rfl, ha, hb⟩

/-- What two steps write is what the second one writes after what the first one has written. -/
theorem records_andThen {step : Action (Ledger ω) α} {next : α → Action (Ledger ω) β}
    {post : Except Error α → List Entry → Prop} {post' : α → Except Error β → List Entry → Prop}
    (h : Records n step.run post) (hn : ∀ a, Records n (next a).run (post' a)) :
    Records n (step >>= next).run (fun r es => r.toBool = true →
      ∃ a es₁ es₂, es = es₂ ++ es₁ ∧ post (.ok a) es₁ ∧ post' a r es₂) := by
  let both : Except Error α → Except Error β → List Entry → Prop
    | .ok a => post' a
    | .error e => fun r es => r = .error e ∧ es = []
  have hboth : ∀ x : Except Error α, Records n (ExceptT.bindCont next x) (both x) := by
    rintro (e | a)
    · exact records_pure _
    · exact hn a
  change Records n (step.run >>= ExceptT.bindCont next) _
  refine (records_bind h hboth).mono ?_
  rintro r es - ⟨e | a, es₁, es₂, rfl, h₁, h₂⟩ hr
  · rw [h₂.1] at hr
    exact absurd hr (by simp [Except.toBool])
  · exact ⟨a, es₁, es₂, rfl, h₁, h₂⟩

variable [Server ω]

theorem records_perform (call : Call) :
    Records n (perform n call : Action (Ledger ω) call.Reply).run
      (fun r es => es = [⟨none, n, call, r⟩]) :=
  fun _ => ⟨[⟨none, n, call, _⟩], ⟨rfl, rfl, by simp [IsAbout]⟩, rfl⟩

theorem isSound_singleton {call : Call} {reply : Except Error call.Reply}
    (hc : call ≠ .close) (hs : call.isStatement = false)
    (hr : call = .autoCommit ∨ call = .rollback → reply.toBool = true) :
    IsSound n [⟨none, n, call, reply⟩] where
  about := by simp [IsAbout]
  fair := by
    rintro e he
    obtain rfl := List.mem_singleton.mp he
    exact ⟨hc, hr⟩
  clean := isClean_of_quiet (by simp [hs])

end Ledger

open Ledger

variable [Server ω]

/-- A rollback that succeeds leaves the connection settled. -/
theorem records_rollBackIfNeeded :
    Records n (rollBackIfNeeded n : Action (Ledger ω) Unit).run
      (fun r es => r.toBool = true → IsSound n es ∧ EndsSettled es) := by
  have hnext (commits : Bool) :
      Records n (if (!commits) = true then perform n .rollback else pure () :
          Action (Ledger ω) Unit).run
        (fun r es => if commits = true then es = [] else es = [⟨none, n, .rollback, r⟩]) := by
    cases commits with
    | true => exact (records_pure _).mono fun _ _ _ h => h.2
    | false => exact records_perform .rollback
  refine (records_andThen (records_perform .autoCommit) hnext).mono ?_
  rintro r es - h hr
  obtain ⟨commits, es₁, es₂, rfl, rfl, h₂⟩ := h hr
  have hfirst : IsSound n [⟨none, n, .autoCommit, .ok commits⟩] :=
    isSound_singleton (by simp) rfl (fun _ => rfl)
  cases commits with
  | true =>
    obtain rfl : es₂ = [] := h₂
    exact ⟨hfirst, ⟨_, rfl, rfl⟩⟩
  | false =>
    obtain rfl : es₂ = [⟨none, n, .rollback, r⟩] := h₂
    refine ⟨.append (isSound_singleton (by simp) rfl (fun _ => hr)) hfirst, ⟨_, rfl, ?_⟩⟩
    cases r with
    | error e => exact absurd hr (by simp [Except.toBool])
    | ok u => rfl

/-- Whatever fails before, close is called in the end. -/
theorem records_closeQuietly :
    Records n (closeQuietly n : StateM (Ledger ω) Unit) (fun _ es => isClosed n es = true) := by
  have hclose : Records n
      (do
        let _ ← (perform n .close : Action (Ledger ω) Unit).run
        return () : StateM (Ledger ω) Unit) (fun _ es => isClosed n es = true) := by
    refine (records_bind (records_perform .close) fun _ => records_pure ()).mono ?_
    rintro - es - ⟨r, es₁, es₂, rfl, rfl, -, rfl⟩
    simp [isClosed]
  unfold closeQuietly
  refine (records_bind (records_perform .autoCommit)
    fun r => (?_ : Records n _ fun _ es => isClosed n es = true)).mono ?_
  · rcases r with e | _ | _
    · exact hclose
    · refine (records_bind (records_perform .rollback) fun _ => hclose).mono ?_
      rintro - es - ⟨r, es₁, es₂, rfl, -, h₂⟩
      simp [isClosed_append, h₂]
    · exact hclose
  · rintro - es - ⟨r, es₁, es₂, rfl, -, h₂⟩
    simp [isClosed_append, h₂]

theorem Slot.records_rollsBack (slot : Slot) :
    Records slot.physical.connection (slot.rollsBack : StateM (Ledger ω) Bool)
      (fun good es => good = true →
        IsSound slot.physical.connection es ∧ EndsSettled es) := by
  refine (records_bind records_rollBackIfNeeded fun r => records_pure r.toBool).mono ?_
  rintro good es - ⟨r, es₁, es₂, rfl, h₁, rfl, rfl⟩ hr
  exact h₁ hr

theorem Slot.records_isOpen (slot : Slot) :
    Records slot.physical.connection (slot.isOpen : StateM (Ledger ω) Bool)
      (fun _ es => IsSound slot.physical.connection es) := by
  have hnext (r : Except Error Bool) : Records slot.physical.connection
      (match r with
        | .ok closed => pure !closed
        | .error _ => pure false : StateM (Ledger ω) Bool) (fun _ es => es = []) := by
    cases r <;> exact (records_pure _).mono fun _ _ _ h => h.2
  refine (records_bind (records_perform .isClosed) hnext).mono ?_
  rintro good es - ⟨r, es₁, es₂, rfl, rfl, rfl⟩
  exact isSound_singleton (by simp) rfl (by simp)

theorem Slot.records_testQuery (query : String) (slot : Slot) :
    Records slot.physical.connection (slot.testQuery query : Action (Ledger ω) Unit).run
      (fun r es => r.toBool = true → IsSound slot.physical.connection es) := by
  refine (records_andThen (records_perform (.execute query))
    fun _ => records_rollBackIfNeeded).mono ?_
  rintro r es ha h hr
  obtain ⟨u, es₁, es₂, rfl, rfl, h₂⟩ := h hr
  obtain ⟨hsound, hends⟩ := h₂ hr
  -- The statement of the test is settled by what comes after it.
  refine ⟨ha, ?_, isClean_of_endsSettled hsound.about hends⟩
  intro e he
  rcases List.mem_append.mp he with he | he
  · exact hsound.fair e he
  · obtain rfl := List.mem_singleton.mp he
    exact ⟨by simp, by simp⟩

/-- A connection that answers was not closed, and nothing is left uncommitted on it. -/
theorem Slot.records_answers (config : PoolConfig) (now : Instant) (slot : Slot) :
    Records slot.physical.connection (slot.answers config now : StateM (Ledger ω) Bool)
      (fun good es => good = true → IsSound slot.physical.connection es) := by
  let n := slot.physical.connection
  have hquery : Records n (succeeds (slot.testQuery config.pingQuery) : StateM (Ledger ω) Bool)
      (fun good es => good = true → IsSound n es) := by
    refine (records_bind (slot.records_testQuery config.pingQuery)
      fun r => records_pure r.toBool).mono ?_
    rintro good es - ⟨r, es₁, es₂, rfl, h₁, rfl, rfl⟩ hr
    exact h₁ hr
  have hverdict (passed : Bool) : Records n
      (if passed = true then pure true else do
        let _ ← (perform n .close : Action (Ledger ω) Unit).run
        return false : StateM (Ledger ω) Bool)
      (fun good es => good = true → passed = true ∧ es = []) := by
    cases passed with
    | true => exact (records_pure _).mono fun _ _ _ h _ => ⟨rfl, h.2⟩
    | false =>
      refine (records_bind (records_perform .close) fun _ => records_pure false).mono ?_
      rintro good es - ⟨r, es₁, es₂, -, -, rfl, -⟩ hgood
      exact absurd hgood (by simp)
  have hopen (isOpen : Bool) : Records n
      (if (!isOpen) = true then pure false
        else if (!slot.needsTest config now) = true then pure true
        else do
          let passed ← succeeds (slot.testQuery config.pingQuery)
          if passed = true then pure true
          else do
            let _ ← (perform n .close : Action (Ledger ω) Unit).run
            return false : StateM (Ledger ω) Bool)
      (fun good es => good = true → IsSound n es) := by
    split
    · exact (records_pure _).mono fun _ _ _ h _ => h.2 ▸ isSound_nil
    split
    · exact (records_pure _).mono fun _ _ _ h _ => h.2 ▸ isSound_nil
    refine (records_bind hquery hverdict).mono ?_
    rintro good es - ⟨passed, es₁, es₂, rfl, h₁, h₂⟩ hgood
    obtain ⟨hpassed, rfl⟩ := h₂ hgood
    exact h₁ hpassed
  refine (records_bind slot.records_isOpen hopen).mono ?_
  rintro good es - ⟨isOpen, es₁, es₂, rfl, h₁, h₂⟩ hgood
  exact (h₂ hgood).append h₁

structure Slot.Passed (slot : Slot) (test : Test) (es : List Entry) : Prop where
  sound : IsSound slot.physical.connection es
  settled : test = .rollsBack → EndsSettled es

theorem Slot.records_passes (config : PoolConfig) (now : Instant) (isLive : Bool) (test : Test)
    (slot : Slot) :
    Records slot.physical.connection
      (slot.passes config now isLive test : StateM (Ledger ω) Bool)
      (fun good es => good = true → slot.Passed test es) := by
  cases test with
  | live => exact (records_pure _).mono fun _ _ _ h _ => h.2 ▸ ⟨isSound_nil, nofun⟩
  | answers => exact (slot.records_answers config now).mono fun _ _ _ h hgood => ⟨h hgood, nofun⟩
  | rollsBack =>
    refine slot.records_rollsBack.mono fun _ _ _ h hgood => ?_
    obtain ⟨hsound, hends⟩ := h hgood
    exact ⟨hsound, fun _ => hends⟩

def Ledger.IsHarmless (n : Nat) (action : Action (Ledger ω) α) : Prop :=
  Records n action.run (fun r es => r.toBool = true → IsSound n es)

omit [Server ω] in
theorem isHarmless_pure (a : α) : IsHarmless n (pure a : Action (Ledger ω) α) := by
  refine (records_pure (ω := ω) (Except.ok a : Except Error α)).mono ?_
  rintro r es - ⟨-, rfl⟩ -
  exact isSound_nil

omit [Server ω] in
theorem isHarmless_bind {step : Action (Ledger ω) α} {next : α → Action (Ledger ω) β}
    (h : IsHarmless n step) (hn : ∀ a, IsHarmless n (next a)) :
    IsHarmless n (step >>= next) := by
  refine (records_andThen h hn).mono ?_
  rintro r es - hes hr
  obtain ⟨a, es₁, es₂, rfl, h₁, h₂⟩ := hes hr
  exact (h₂ hr).append (h₁ rfl)

theorem isHarmless_perform (call : Call) (hc : call ≠ .close) (hs : call.isStatement = false) :
    IsHarmless n (perform n call : Action (Ledger ω) call.Reply) := by
  refine (records_perform call).mono ?_
  rintro r es - rfl hr
  exact isSound_singleton hc hs fun _ => hr

/-- Setting a new connection up runs no statement. -/
theorem ConnectionSettings.isHarmless_configure (s : ConnectionSettings) :
    IsHarmless n (s.configure n : Action (Ledger ω) Unit) := by
  -- The three settings are applied one after the other, each only if it is there.
  have hlevel : IsHarmless n
      ({ s with networkTimeout := none, autoCommit := none }.configure n :
        Action (Ledger ω) Unit) := by
    unfold configure
    cases s.isolation with
    | none => exact isHarmless_pure ()
    | some level => exact isHarmless_perform (.setIsolation level) (by simp) rfl
  have hcommit : IsHarmless n
      ({ s with networkTimeout := none }.configure n : Action (Ledger ω) Unit) := by
    cases hwanted : s.autoCommit with
    | none => exact hlevel
    | some wanted =>
      unfold configure
      refine isHarmless_bind (isHarmless_perform .autoCommit (by simp) rfl) ?_
      intro actual
      by_cases h : (wanted != actual) = true
      · rw [if_pos h]
        refine isHarmless_bind ?_ fun _ => hlevel
        exact isHarmless_perform (.setAutoCommit wanted) (by simp) rfl
      · rw [if_neg h]
        exact hlevel
  cases htimeout : s.networkTimeout with
  | none =>
    have hsame : s = { s with networkTimeout := none } := by rw [← htimeout]
    rw [hsame]
    exact hcommit
  | some timeout =>
    unfold configure
    rw [htimeout]
    refine isHarmless_bind ?_ fun _ => hcommit
    exact isHarmless_perform (.setNetworkTimeout timeout) (by simp) rfl

/-- How opening a connection can end, and what it leaves: the server opens none; or one was opened
that could not be set up, and close was called on it; or there is one that can be handed out. -/
inductive ConnectionSettings.Connects (s : ConnectionSettings) (username password : Option String)
    (l l' : Ledger ω) : Except Error Nat → Prop where
  | refused (e : Error) (hopenings : l'.openings = l.openings) (hentries : l'.entries = l.entries) :
    Connects s username password l l' (.error e)
  | failed (e : Error) (o : Opening) (es : List Entry) (hurl : o.url = s.url)
    (hproperties : o.properties = s.connectProperties username password)
    (hopenings : l'.openings = l.openings ++ [o]) (hentries : l'.entries = es ++ l.entries)
    (habout : IsAbout l.openings.length es) (hclosed : isClosed l.openings.length es = true) :
    Connects s username password l l' (.error e)
  | opened (o : Opening) (es : List Entry) (hurl : o.url = s.url)
    (hproperties : o.properties = s.connectProperties username password)
    (hopenings : l'.openings = l.openings ++ [o]) (hentries : l'.entries = es ++ l.entries)
    (hsound : IsSound l.openings.length es) :
    Connects s username password l l' (.ok l.openings.length)

theorem Action.run_bind {ω : Type} (step : Action ω α) (next : α → Action ω β) (w : ω) :
    (step >>= next).run w = match step.run w with
      | (.ok a, w) => (next a).run w
      | (.error e, w) => (.error e, w) := by
  change (match step.run w with | (x, w) => ExceptT.bindCont next x w) = _
  rcases step.run w with ⟨e | a, w⟩ <;> rfl

theorem ConnectionSettings.connects (s : ConnectionSettings) (username password : Option String)
    (l : Ledger ω) :
    s.Connects username password l ((s.connect username password).run l).2
      ((s.connect username password).run l).1 := by
  have hfirst : (Connection.connect s.url (s.connectProperties username password)).run l =
      Ledger.connect s.url (s.connectProperties username password) l := rfl
  rw [connect, Action.run_bind, hfirst, Ledger.connect]
  rcases Server.connect s.url (s.connectProperties username password) l.server with
    ⟨e | connection, server⟩
  · exact .refused e rfl rfl
  -- The connection was opened under the next number, and is set up now.
  let o : Opening := ⟨connection, s.url, s.connectProperties username password⟩
  let l₁ : Ledger ω := { l with server := server, openings := l.openings ++ [o] }
  obtain ⟨es, hw, hes⟩ := s.isHarmless_configure (n := l.openings.length) l₁
  rcases hrun : (s.configure l.openings.length).run l₁ with ⟨e | u, l₂⟩
  -- It could not be set up, so it is closed again.
  · rw [hrun] at hw
    obtain ⟨es', hw', rfl⟩ := records_perform (n := l.openings.length) .close l₂
    dsimp only [ExceptT.run_mk]
    rw [hrun]
    have hboth := hw.trans hw'
    refine .failed e o (_ :: es) rfl rfl hboth.openings hboth.entries hboth.about ?_
    simp [isClosed]
  · rw [hrun] at hw hes
    dsimp only [ExceptT.run_mk]
    rw [hrun]
    exact .opened o es rfl rfl hw.openings hw.entries (hes rfl)

end SqlMapper
