import Mathlib.Data.List.Nodup
import SqlMapper.Connection.Memory
import SqlMapper.Connection.Recorder
import SqlMapper.Proofs.Pool.Writes

/-!
Servers whose connections commit by themselves or not, as they were told the last time. What the
pool does to a connection that is set up tells it nothing. A server in memory is one of them.
-/

namespace SqlMapper

open Connection Ledger

variable {ω : Type}

/-- What a server knows of its connections when each of them commits by itself or does not, as it
was told the last time. A call that fails has told it nothing. -/
structure CommitModes (ω : Type) [Server ω] [Clock ω] where
  isKnown : ω → Nat → Prop
  mode : ω → Nat → Bool
  opens : ∀ url properties w n, (Server.connect url properties w).1 = .ok n →
    ¬isKnown w n ∧ isKnown (Server.connect url properties w).2 n
  connects : ∀ url properties w k, isKnown w k →
    isKnown (Server.connect url properties w).2 k ∧
      mode (Server.connect url properties w).2 k = mode w k
  performs : ∀ n call w k, isKnown w k → isKnown (Server.perform n call w).2 k
  others : ∀ n call w k, k ≠ n → mode (Server.perform n call w).2 k = mode w k
  keeps : ∀ n call w, (∀ on, call ≠ .setAutoCommit on) →
    mode (Server.perform n call w).2 n = mode w n
  fails : ∀ n on w e, (Server.perform n (.setAutoCommit on) w).1 = .error e →
    mode (Server.perform n (.setAutoCommit on) w).2 n = mode w n
  sets : ∀ n on w, (Server.perform n (.setAutoCommit on) w).1 = .ok () →
    mode (Server.perform n (.setAutoCommit on) w).2 n = on
  answers : ∀ n w on, (Server.perform n .autoCommit w).1 = .ok on → on = mode w n
  reads : ∀ w k, (isKnown w k → isKnown (Clock.read w).2 k) ∧ mode (Clock.read w).2 k = mode w k
  waits : ∀ t w k, (isKnown w k → isKnown (Clock.waitUntil t w) k) ∧
    mode (Clock.waitUntil t w) k = mode w k

/-- Something that may happen at a server without a call and leaves every connection as it was. -/
def CommitModes.IsCalm [Server ω] [Clock ω] (m : CommitModes ω) (change : ω → ω) : Prop :=
  ∀ w k, (m.isKnown w k → m.isKnown (change w) k) ∧ m.mode (change w) k = m.mode w k

namespace Ledger

def Entry.setting? (n : Nat) : Entry → Option Bool
  | ⟨some _, connection, .setAutoCommit on, .ok _⟩ => if connection = n then some on else none
  | _ => none

def lastSet (n : Nat) (entries : List Entry) : Option Bool := entries.findSome? (·.setting? n)

theorem lastSet_cons (n : Nat) (e : Entry) (entries : List Entry) :
    lastSet n (e :: entries) = (e.setting? n).or (lastSet n entries) := by
  rw [lastSet, List.findSome?_cons]
  cases e.setting? n <;> rfl

theorem setting?_of_ne {n : Nat} {e : Entry} (h : e.connection ≠ n) : e.setting? n = none := by
  unfold Entry.setting?
  split
  · exact if_neg h
  · rfl

theorem setting?_of_error {n connection : Nat} {caller : Option Nat} {call : Call} {e : Error} :
    Entry.setting? n ⟨caller, connection, call, .error e⟩ = none := by
  cases caller <;> cases call <;> rfl

theorem setting?_of_call {n connection : Nat} {caller : Option Nat} {call : Call}
    (h : ∀ on, call ≠ .setAutoCommit on) (reply : Except Error call.Reply) :
    Entry.setting? n ⟨caller, connection, call, reply⟩ = none := by
  cases call with
  | setAutoCommit on => exact absurd rfl (h on)
  | _ => cases caller <;> rfl

theorem lastSet_eq_none {n : Nat} {entries : List Entry} (h : ∀ e ∈ entries, e.connection ≠ n) :
    lastSet n entries = none := by
  rw [lastSet, List.findSome?_eq_none_iff]
  exact fun e he => setting?_of_ne (h e he)

end Ledger

namespace CommitModes

section

variable [Server ω] [Clock ω] (m : CommitModes ω)

structure Keeps (P : List Opening → Nat → Prop) (l l' : Ledger ω) : Prop where
  openings : l'.openings = l.openings
  known : ∀ k, m.isKnown l.server k → m.isKnown l'.server k
  mode : ∀ k, P l.openings k → m.mode l'.server k = m.mode l.server k
  unset : ∀ n, lastSet n l'.entries = lastSet n l.entries

variable {m} {P : List Opening → Nat → Prop} {l l' l'' : Ledger ω} {n : Nat}

theorem Keeps.refl : m.Keeps P l l := ⟨rfl, fun _ h => h, fun _ _ => rfl, fun _ => rfl⟩

theorem Keeps.trans (h : m.Keeps P l l') (h' : m.Keeps P l' l'') : m.Keeps P l l'' where
  openings := h'.openings.trans h.openings
  known := fun k hk => h'.known k (h.known k hk)
  mode := fun k hP => (h'.mode k (h.openings ▸ hP)).trans (h.mode k hP)
  unset := fun n => (h'.unset n).trans (h.unset n)

theorem keeps_read : m.Keeps P l (Clock.read l).2 where
  openings := rfl
  known := fun k => (m.reads l.server k).1
  mode := fun k _ => (m.reads l.server k).2
  unset := fun _ => rfl

theorem keeps_waitUntil (t : Instant) : m.Keeps P l (Clock.waitUntil t l) where
  openings := rfl
  known := fun k => (m.waits t l.server k).1
  mode := fun k _ => (m.waits t l.server k).2
  unset := fun _ => rfl

/-- A call of the pool that sets nothing, or concerns a connection that may change. -/
theorem keeps_callFor (call : Call) (hcall : (∀ on, call ≠ .setAutoCommit on) ∨
    ∀ os o, os[n]? = some o → ¬P os o.connection) : m.Keeps P l (l.callFor none n call).2 := by
  unfold callFor answer
  cases ho : l.openings[n]? with
  | none => exact ⟨rfl, fun _ h => h, fun _ _ => rfl, fun _ => rfl⟩
  | some o =>
    refine ⟨rfl, fun k hk => m.performs o.connection call l.server k hk, ?_, fun _ => rfl⟩
    intro k hP
    by_cases hsame : k = o.connection
    · subst hsame
      rcases hcall with hcall | hchanges
      · exact m.keeps o.connection call l.server hcall
      · exact absurd hP (hchanges l.openings o ho)
    · exact m.others o.connection call l.server k hsame

variable (m P)

def IsQuiet {α : Type} (step : StateM (Ledger ω) α) : Prop := ∀ l, m.Keeps P l (step l).2

variable {m P} {α β : Type}

theorem isQuiet_pure (a : α) : m.IsQuiet P (pure a : StateM (Ledger ω) α) := fun _ => .refl

theorem isQuiet_bind {step : StateM (Ledger ω) α} {next : α → StateM (Ledger ω) β}
    (h : m.IsQuiet P step) (hn : ∀ a, m.IsQuiet P (next a)) : m.IsQuiet P (step >>= next) :=
  fun l => (h l).trans (hn (step l).1 (step l).2)

theorem isQuiet_andThen {step : Action (Ledger ω) α} {next : α → Action (Ledger ω) β}
    (h : m.IsQuiet P step.run) (hn : ∀ a, m.IsQuiet P (next a).run) :
    m.IsQuiet P (step >>= next).run := by
  change m.IsQuiet P (step.run >>= ExceptT.bindCont next)
  refine isQuiet_bind h ?_
  rintro (e | a)
  · exact isQuiet_pure _
  · exact hn a

theorem isQuiet_perform (call : Call) (hcall : ∀ on, call ≠ .setAutoCommit on) :
    m.IsQuiet P (perform n call : Action (Ledger ω) call.Reply).run :=
  fun _ => keeps_callFor call (.inl hcall)

-- The condition on a connection of the server: it is not that of a given number.
theorem isQuiet_setAutoCommit (on : Bool) :
    m.IsQuiet (fun os k => ∀ o, os[n]? = some o → k ≠ o.connection)
      (perform n (.setAutoCommit on) : Action (Ledger ω) Unit).run :=
  fun _ => keeps_callFor (.setAutoCommit on) (.inr fun _ o ho hother => hother o ho rfl)

theorem isQuiet_succeeds {step : Action (Ledger ω) α} (h : m.IsQuiet P step.run) :
    m.IsQuiet P (succeeds step) :=
  isQuiet_bind h fun r => isQuiet_pure r.toBool

theorem isQuiet_rollBackIfNeeded :
    m.IsQuiet P (rollBackIfNeeded n : Action (Ledger ω) Unit).run := by
  refine isQuiet_andThen (isQuiet_perform .autoCommit (by simp)) fun commits => ?_
  cases commits with
  | true => exact isQuiet_pure _
  | false => exact isQuiet_perform .rollback (by simp)

theorem isQuiet_closeQuietly : m.IsQuiet P (closeQuietly n : StateM (Ledger ω) Unit) := by
  have hclose : m.IsQuiet P (do
      let _ ← (perform n .close : Action (Ledger ω) Unit).run
      return () : StateM (Ledger ω) Unit) :=
    isQuiet_bind (isQuiet_perform .close (by simp)) fun _ => isQuiet_pure ()
  refine isQuiet_bind (isQuiet_perform .autoCommit (by simp)) fun r => ?_
  rcases r with e | _ | _
  · exact hclose
  · exact isQuiet_bind (isQuiet_perform .rollback (by simp)) fun _ => hclose
  · exact hclose

theorem isQuiet_isolate (s : ConnectionSettings) : m.IsQuiet P
    ({ s with networkTimeout := none, autoCommit := none }.configure n :
      Action (Ledger ω) Unit).run := by
  unfold ConnectionSettings.configure
  cases s.isolation with
  | none => exact isQuiet_pure _
  | some level => exact isQuiet_perform (.setIsolation level) (by simp)

/-- Setting a new connection up changes no other one. -/
theorem isQuiet_configure (s : ConnectionSettings) :
    m.IsQuiet (fun os k => ∀ o, os[n]? = some o → k ≠ o.connection)
      (s.configure n : Action (Ledger ω) Unit).run := by
  have hcommit : m.IsQuiet (fun os k => ∀ o, os[n]? = some o → k ≠ o.connection)
      ({ s with networkTimeout := none }.configure n : Action (Ledger ω) Unit).run := by
    cases hwanted : s.autoCommit with
    | none => exact isQuiet_isolate s
    | some wanted =>
      unfold ConnectionSettings.configure
      refine isQuiet_andThen (isQuiet_perform .autoCommit (by simp)) fun actual => ?_
      split
      · exact isQuiet_andThen (isQuiet_setAutoCommit wanted) fun _ => isQuiet_isolate s
      · exact isQuiet_isolate s
  cases htimeout : s.networkTimeout with
  | none =>
    have hsame : s = { s with networkTimeout := none } := by rw [← htimeout]
    rw [hsame]
    exact hcommit
  | some timeout =>
    unfold ConnectionSettings.configure
    rw [htimeout]
    exact isQuiet_andThen (isQuiet_perform (.setNetworkTimeout timeout) (by simp)) fun _ => hcommit

theorem mode_of_autoCommit {o : Opening} (ho : l.openings[n]? = some o) {on : Bool}
    (hreply : l.callFor none n .autoCommit = (.ok on, l')) :
    m.mode l'.server o.connection = on ∧ l'.openings = l.openings := by
  have hkeeps := m.keeps o.connection .autoCommit l.server (by simp)
  unfold callFor answer at hreply
  rw [ho] at hreply
  obtain ⟨hok, rfl⟩ := Prod.mk.inj hreply
  exact ⟨hkeeps.trans (m.answers o.connection l.server on hok).symm, rfl⟩

theorem mode_of_setAutoCommit {o : Opening} (ho : l.openings[n]? = some o) {on : Bool}
    (hreply : l.callFor none n (.setAutoCommit on) = (.ok (), l')) :
    m.mode l'.server o.connection = on := by
  unfold callFor answer at hreply
  rw [ho] at hreply
  obtain ⟨hok, rfl⟩ := Prod.mk.inj hreply
  exact m.sets o.connection on l.server hok

/-- Setting a connection up gives it the mode that the settings say. -/
theorem mode_configure_untimed {s : ConnectionSettings} {b : Bool} (hb : s.autoCommit = some b)
    {o : Opening} (ho : l.openings[n]? = some o)
    (hok : (({ s with networkTimeout := none }.configure n : Action (Ledger ω) Unit).run l).1 =
      .ok ()) :
    m.mode (({ s with networkTimeout := none }.configure n :
      Action (Ledger ω) Unit).run l).2.server o.connection = b := by
  have hisolate (l : Ledger ω) := isQuiet_isolate (m := m) (n := n) (P := fun _ _ => True) s l
  unfold ConnectionSettings.configure at hok ⊢
  dsimp only at hok ⊢
  rw [hb, Action.run_bind] at hok ⊢
  have hfirst : (perform n .autoCommit : Action (Ledger ω) Bool).run l =
      l.callFor none n .autoCommit := rfl
  rw [hfirst] at hok ⊢
  rcases hreply : l.callFor none n .autoCommit with ⟨e | actual, l₁⟩
  · rw [hreply] at hok
    exact absurd hok (by simp)
  rw [hreply] at hok
  dsimp only at hok ⊢
  obtain ⟨hactual, hopenings⟩ := mode_of_autoCommit ho hreply
  by_cases hdiffers : (b != actual) = true
  -- It is set, and the isolation level after it does not change it.
  · rw [if_pos hdiffers, Action.run_bind] at hok ⊢
    have hsecond : (perform n (.setAutoCommit b) : Action (Ledger ω) Unit).run l₁ =
        l₁.callFor none n (.setAutoCommit b) := rfl
    rw [hsecond] at hok ⊢
    rcases hset : l₁.callFor none n (.setAutoCommit b) with ⟨e | u, l₂⟩
    · rw [hset] at hok
      exact absurd hok (by simp)
    · have hmode := mode_of_setAutoCommit (m := m) (hopenings ▸ ho) hset
      exact ((hisolate l₂).mode o.connection trivial).trans hmode
  -- It is already as the settings say.
  · rw [if_neg hdiffers] at hok ⊢
    have hsame : actual = b := by
      rw [bne_iff_ne, not_not] at hdiffers
      exact hdiffers.symm
    exact ((hisolate l₁).mode o.connection trivial).trans (hactual.trans hsame)

/-- A connection that could be set up commits by itself as the settings say. -/
theorem mode_configure {s : ConnectionSettings} {b : Bool} (hb : s.autoCommit = some b)
    {o : Opening} (ho : l.openings[n]? = some o)
    (hok : ((s.configure n : Action (Ledger ω) Unit).run l).1 = .ok ()) :
    m.mode ((s.configure n : Action (Ledger ω) Unit).run l).2.server o.connection = b := by
  cases htimeout : s.networkTimeout with
  | none =>
    have hsame : s = { s with networkTimeout := none } := by rw [← htimeout]
    rw [hsame] at hok ⊢
    exact mode_configure_untimed hb ho hok
  | some timeout =>
    have hfirst : (s.configure n : Action (Ledger ω) Unit) =
        perform n (.setNetworkTimeout timeout) >>= fun _ =>
          { s with networkTimeout := none }.configure n := by
      unfold ConnectionSettings.configure
      rw [htimeout]
    rw [hfirst, Action.run_bind] at hok ⊢
    have hcall : (perform n (.setNetworkTimeout timeout) : Action (Ledger ω) Unit).run l =
        l.callFor none n (.setNetworkTimeout timeout) := rfl
    rw [hcall] at hok ⊢
    rcases hreply : l.callFor none n (.setNetworkTimeout timeout) with ⟨e | u, l₁⟩
    · rw [hreply] at hok
      exact absurd hok (by simp)
    · rw [hreply] at hok
      have hopenings : l₁.openings = l.openings := by
        rw [← show _ = l₁ from congrArg Prod.snd hreply]
        rfl
      exact mode_configure_untimed hb (hopenings ▸ ho) hok

variable (m) in
structure IsDistinct (l : Ledger ω) : Prop where
  nodup : (l.openings.map (·.connection)).Nodup
  known : ∀ o ∈ l.openings, m.isKnown l.server o.connection

variable (m) in
structure Extends (l l' : Ledger ω) : Prop where
  grows : l.openings <+: l'.openings
  mode : ∀ o ∈ l.openings, m.mode l'.server o.connection = m.mode l.server o.connection
  unset : ∀ n, lastSet n l'.entries = lastSet n l.entries
  distinct : m.IsDistinct l'

theorem Keeps.distinct (h : m.Keeps P l l') (hd : m.IsDistinct l) : m.IsDistinct l' where
  nodup := h.openings ▸ hd.nodup
  known := h.openings ▸ fun o ho => h.known _ (hd.known o ho)

theorem Keeps.extends (h : m.Keeps (fun _ _ => True) l l') (hd : m.IsDistinct l) :
    m.Extends l l' where
  grows := h.openings ▸ List.prefix_refl _
  mode := fun _ _ => h.mode _ trivial
  unset := h.unset
  distinct := h.distinct hd

theorem Keeps.trans_extends (h : m.Keeps (fun _ _ => True) l l') (h' : m.Extends l' l'') :
    m.Extends l l'' where
  grows := h.openings ▸ h'.grows
  mode := fun o ho => (h'.mode o (h.openings ▸ ho)).trans (h.mode _ trivial)
  unset := fun n => (h'.unset n).trans (h.unset n)
  distinct := h'.distinct

theorem IsDistinct.opened (hd : m.IsDistinct l) {o : Opening} {server : ω}
    (hunknown : ¬m.isKnown l.server o.connection) (hknown : m.isKnown server o.connection)
    (hold : ∀ k, m.isKnown l.server k → m.isKnown server k) :
    m.IsDistinct { l with server := server, openings := l.openings ++ [o] } := by
  refine ⟨?_, ?_⟩
  · rw [List.map_append, List.nodup_append]
    refine ⟨hd.nodup, List.nodup_singleton _, ?_⟩
    rintro k hk k' hk' rfl
    obtain ⟨x, hx, rfl⟩ := List.mem_map.mp hk
    have hsame : x.connection = o.connection := List.mem_singleton.mp hk'
    exact hunknown (hsame ▸ hd.known x hx)
  · intro x hx
    rcases List.mem_append.mp hx with hx | hx
    · exact hold _ (hd.known x hx)
    · rw [List.mem_singleton.mp hx]
      exact hknown

/-- Whatever is done to a new connection, the others stay as they are. -/
theorem extends_of_opened {o : Opening} {server : ω} {l₁ : Ledger ω}
    (hopened : l₁ = { l with server := server, openings := l.openings ++ [o] })
    (hd : m.IsDistinct l₁)
    (hmode : ∀ x ∈ l.openings, m.mode server x.connection = m.mode l.server x.connection)
    (hkeeps : m.Keeps (fun os k => ∀ o, os[l.openings.length]? = some o → k ≠ o.connection)
      l₁ l') : m.Extends l l' := by
  subst hopened
  have hnodup := hd.nodup
  rw [List.map_append, List.nodup_append] at hnodup
  refine ⟨?_, ?_, hkeeps.unset, hkeeps.distinct hd⟩
  · rw [hkeeps.openings]
    exact List.prefix_append _ _
  · intro x hx
    refine (hkeeps.mode x.connection fun y hy => ?_).trans (hmode x hx)
    obtain rfl : o = y := Option.some.inj (List.getElem?_concat_length.symm.trans hy)
    exact hnodup.2.2 _ (List.mem_map_of_mem hx) _ List.mem_cons_self

/-- Opening a connection changes no other one. If it succeeds, the new one commits by itself as the
settings say. -/
theorem connect_extends (s : ConnectionSettings) (username password : Option String)
    (hd : m.IsDistinct l) :
    let opened := (s.connect username password : Action (Ledger ω) Nat).run l
    m.Extends l opened.2 ∧ ∀ n, opened.1 = .ok n → n = l.openings.length ∧
      ∀ b, s.autoCommit = some b → ∀ o, opened.2.openings[n]? = some o →
        m.mode opened.2.server o.connection = b := by
  let properties := s.connectProperties username password
  have hserver := fun k hk => m.connects s.url properties l.server k hk
  have hopens := m.opens s.url properties l.server
  have hfirst : (Connection.connect s.url properties : Action (Ledger ω) Nat).run l =
      Ledger.connect s.url properties l := rfl
  rw [ConnectionSettings.connect, Action.run_bind, hfirst, Ledger.connect]
  rcases hreply : Server.connect s.url properties l.server with ⟨e | k, server⟩
  -- The server opens nothing.
  · rw [hreply] at hserver
    refine ⟨⟨List.prefix_refl _, fun o ho => (hserver _ (hd.known o ho)).2, fun _ => rfl, hd.nodup,
      fun o ho => (hserver _ (hd.known o ho)).1⟩, (by simp)⟩
  rw [hreply] at hserver hopens
  obtain ⟨hunknown, hknown⟩ := hopens k rfl
  let n := l.openings.length
  let o : Opening := ⟨k, s.url, properties⟩
  let l₁ : Ledger ω := { l with server := server, openings := l.openings ++ [o] }
  have hd₁ : m.IsDistinct l₁ := hd.opened hunknown hknown fun k hk => (hserver k hk).1
  have ho : l₁.openings[n]? = some o := List.getElem?_concat_length
  have hothers (l₂ : Ledger ω)
      (hkeeps : m.Keeps (fun os k => ∀ o, os[n]? = some o → k ≠ o.connection) l₁ l₂) :
      m.Extends l l₂ :=
    extends_of_opened rfl hd₁ (fun x hx => (hserver _ (hd.known x hx)).2) hkeeps
  have hconfigure := isQuiet_configure (m := m) (n := n) s l₁
  rcases hrun : (s.configure n : Action (Ledger ω) Unit).run l₁ with ⟨r, l₂⟩
  have hkeeps : m.Keeps (fun os k => ∀ o, os[n]? = some o → k ≠ o.connection) l₁ l₂ := by
    rw [← show _ = l₂ from congrArg Prod.snd hrun]
    exact hconfigure
  dsimp only [ExceptT.run_mk]
  rw [hrun]
  rcases r with e | u
  -- It could not be set up and is closed.
  · exact ⟨hothers _ (hkeeps.trans (keeps_callFor .close (.inl (by simp)))), (by simp)⟩
  · refine ⟨hothers _ hkeeps, ?_⟩
    rintro _ ⟨⟩
    refine ⟨rfl, fun b hb x hx => ?_⟩
    have hmode := mode_configure (m := m) (l := l₁) hb ho (congrArg Prod.fst hrun)
    rw [hrun] at hmode
    obtain rfl : o = x := by
      have hx' : l₂.openings[n]? = some x := hx
      rw [hkeeps.openings] at hx'
      exact Option.some.inj (ho.symm.trans hx')
    exact hmode

end

end CommitModes

namespace MemoryServer

def commits (s : MemoryServer) (n : Nat) : Bool :=
  ((s.connections.lookup n).map (·.autoCommit)).getD false

variable {s : MemoryServer} {n k : Nat}

theorem lookup_change (f : MemoryConnection → MemoryConnection) :
    (s.change n f).connections.lookup k =
      (s.connections.lookup k).map fun c => if k = n then f c else c := by
  have hcons (e : Nat × MemoryConnection) (rest : List (Nat × MemoryConnection)) :
      (e :: rest).lookup k = if k = e.1 then some e.2 else rest.lookup k := by
    rw [List.lookup_cons]
    by_cases hk : k = e.1
    · rw [if_pos hk, beq_iff_eq.mpr hk]
    · rw [if_neg hk, beq_eq_false_iff_ne.mpr hk]
  unfold change
  dsimp only
  induction s.connections with
  | nil => rfl
  | cons e rest ih =>
    -- The changed connection has the number that it had before.
    have hkey : (if e.1 == n then (e.1, f e.2) else e).1 = e.1 := by split <;> rfl
    rw [List.map_cons, hcons, hcons, ih, hkey]
    by_cases hk : k = e.1
    · rw [if_pos hk, if_pos hk, Option.map_some, hk]
      by_cases hn : e.1 = n <;> simp [hn]
    · rw [if_neg hk, if_neg hk]

theorem commits_change (f : MemoryConnection → MemoryConnection)
    (h : k ≠ n ∨ ∀ c, (f c).autoCommit = c.autoCommit) :
    (s.change n f).commits k = s.commits k := by
  unfold commits
  rw [lookup_change, Option.map_map]
  congr 2
  funext c
  rcases h with hother | hsame
  · simp [hother]
  · by_cases hk : k = n <;> simp [hk, hsame]

/-- What a call does to a server, apart from setting whether a connection commits by itself. -/
theorem perform_keeps (call : Call) (h : k ≠ n ∨ ∀ on, call ≠ .setAutoCommit on) :
    (s.perform n call).2.commits k = s.commits k ∧ (s.perform n call).2.opened = s.opened := by
  cases call with
  | close =>
    unfold perform close
    cases s.open? n with
    | none => exact ⟨rfl, rfl⟩
    | some c =>
      have hsame : (s.change n ({ · with closed := true })).commits k = s.commits k :=
        commits_change _ (.inr fun _ => rfl)
      exact ⟨hsame, rfl⟩
  | isClosed => exact ⟨rfl, rfl⟩
  | setAutoCommit on =>
    have hother : k ≠ n := h.resolve_right fun hno => hno on rfl
    unfold perform whenOpen
    cases s.open? n with
    | none => exact ⟨rfl, rfl⟩
    | some c => exact ⟨commits_change _ (.inl hother), rfl⟩
  | setIsolation level | setNetworkTimeout timeout =>
    unfold perform whenOpen
    cases s.open? n with
    | none => exact ⟨rfl, rfl⟩
    | some c => exact ⟨commits_change _ (.inr fun _ => rfl), rfl⟩
  | autoCommit | commit | rollback =>
    unfold perform whenOpen
    cases s.open? n <;> exact ⟨rfl, rfl⟩
  | execute sql | query sql params | update sql params =>
    unfold perform run whenOpen
    cases s.open? n with
    | none => exact ⟨rfl, rfl⟩
    | some c =>
      dsimp only
      split <;> exact ⟨rfl, rfl⟩

theorem lookup_of_open? {c : MemoryConnection} (h : s.open? n = some c) :
    s.connections.lookup n = some c := by
  unfold open? at h
  exact (Option.filter_eq_some_iff.mp h).1

theorem setAutoCommit_cases (on : Bool) :
    (∃ e, s.perform n (.setAutoCommit on) = (.error e, s)) ∨
      (s.perform n (.setAutoCommit on)).1 = .ok () ∧
        (s.perform n (.setAutoCommit on)).2.commits n = on := by
  unfold perform whenOpen
  cases hopen : s.open? n with
  | none => exact .inl ⟨_, rfl⟩
  | some c =>
    refine .inr ⟨rfl, ?_⟩
    dsimp only
    rw [commits, lookup_change, lookup_of_open? hopen]
    simp

theorem eq_of_autoCommit {on : Bool} (h : (s.perform n .autoCommit).1 = .ok on) :
    on = s.commits n := by
  unfold perform whenOpen at h
  cases hopen : s.open? n with
  | none =>
    rw [hopen] at h
    exact absurd h (by simp)
  | some c =>
    rw [hopen] at h
    rw [commits, lookup_of_open? hopen]
    exact (Except.ok.inj h).symm

end MemoryServer

/-- A call that does not fail at once is what the server behind the recorder makes of it; closing
may fail afterwards. -/
theorem Recorder.perform_cases [Server ω] (n : Nat) (call : Call) (r : Recorder ω) :
    (∃ e, (Server.perform n call r).1 = .error e) ∧ (Server.perform n call r).2.server = r.server ∨
      (Server.perform n call r).2.server = (Server.perform n call r.server).2 ∧
        ((Server.perform n call r).1 = (Server.perform n call r.server).1 ∨ call = .close) := by
  have hdef : Server.perform n call r = (r.record (.called n call)).answer n call := rfl
  rw [hdef]
  unfold answer
  split
  · dsimp only
    split
    · rename_i hclose
      subst hclose
      exact .inr ⟨rfl, .inr rfl⟩
    · exact .inl ⟨⟨_, rfl⟩, rfl⟩
  · exact .inr ⟨rfl, .inl rfl⟩

/-- A server in memory refuses a connection and stays as it was, or opens it under a new name. -/
theorem MemoryServer.connect_cases (url : String) (properties : Entries String)
    (r : Recorder MemoryServer) :
    (∃ e, (Server.connect url properties r).1 = .error e) ∧
        (Server.connect url properties r).2.server = r.server ∨
      (Server.connect url properties r).1 = .ok (r.server.opened + 1) ∧
        (Server.connect url properties r).2.server.opened = r.server.opened + 1 ∧
        ∃ c, (Server.connect url properties r).2.server.connections =
          r.server.connections ++ [(r.server.opened + 1, c)] := by
  have hdef : Server.connect url properties r = r.connect url properties := rfl
  have hserver : Server.connect url properties r.server = r.server.connect url properties := rfl
  rw [hdef]
  unfold Recorder.connect
  rw [hserver]
  unfold connect
  by_cases hrefuses : r.server.refusesConnections = true
  · rw [if_pos hrefuses]
    exact .inl ⟨⟨_, rfl⟩, rfl⟩
  · rw [if_neg hrefuses]
    exact .inr ⟨rfl, rfl, _, rfl⟩

def MemoryServer.recorded : CommitModes (Recorder MemoryServer) where
  isKnown r k := k ≤ r.server.opened
  mode r k := r.server.commits k
  opens := by
    intro url properties r k hok
    rcases connect_cases url properties r with ⟨⟨e, herror⟩, -⟩ | ⟨hnumber, hopened, -⟩
    · exact absurd (herror.symm.trans hok) (by simp)
    · obtain rfl : r.server.opened + 1 = k := Except.ok.inj (hnumber.symm.trans hok)
      rw [hopened]
      omega
  connects := by
    intro url properties r k hk
    rcases connect_cases url properties r with ⟨-, hsame⟩ | ⟨-, hopened, c, hconnections⟩
    · rw [hsame]
      exact ⟨hk, rfl⟩
    · rw [hopened]
      refine ⟨Nat.le_succ_of_le hk, ?_⟩
      have hnew : (k == r.server.opened + 1) = false := by
        rw [beq_eq_false_iff_ne]
        omega
      unfold commits
      rw [hconnections, List.lookup_append, List.lookup_cons, hnew, List.lookup_nil, Option.or_none]
  performs := by
    intro n call r k hk
    rcases r.perform_cases n call with ⟨-, hsame⟩ | ⟨hserver, -⟩
    · rw [hsame]
      exact hk
    · have hopened : (r.server.perform n call).2.opened = r.server.opened :=
        (perform_keeps (k := n + 1) call (.inl (Nat.succ_ne_self n))).2
      rw [hserver]
      exact hopened.symm ▸ hk
  others := by
    intro n call r k hother
    rcases r.perform_cases n call with ⟨-, hsame⟩ | ⟨hserver, -⟩
    · rw [hsame]
    · rw [hserver]
      exact (perform_keeps call (.inl hother)).1
  keeps := by
    intro n call r hcall
    rcases r.perform_cases n call with ⟨-, hsame⟩ | ⟨hserver, -⟩
    · rw [hsame]
    · rw [hserver]
      exact (perform_keeps call (.inr hcall)).1
  fails := by
    intro n on r e herror
    rcases r.perform_cases n (.setAutoCommit on) with ⟨-, hsame⟩ | ⟨hserver, hreply⟩
    · rw [hsame]
    · have herror' := (hreply.resolve_right (by simp)).symm.trans herror
      rw [hserver]
      rcases r.server.setAutoCommit_cases on with ⟨e', hsame⟩ | ⟨hok, -⟩
      · exact congrArg (fun x => x.2.commits n) hsame
      · exact absurd (hok.symm.trans herror') (by simp)
  sets := by
    intro n on r hok
    rcases r.perform_cases n (.setAutoCommit on) with ⟨⟨e, herror⟩, -⟩ | ⟨hserver, hreply⟩
    · exact absurd (herror.symm.trans hok) (by simp)
    · have hok' := (hreply.resolve_right (by simp)).symm.trans hok
      rw [hserver]
      rcases r.server.setAutoCommit_cases on with ⟨e', hsame⟩ | ⟨-, hset⟩
      · exact absurd ((congrArg Prod.fst hsame).symm.trans hok') (by simp)
      · exact hset
  answers := by
    intro n r on hon
    rcases r.perform_cases n .autoCommit with ⟨⟨e, herror⟩, -⟩ | ⟨-, hreply⟩
    · exact absurd (herror.symm.trans hon) (by simp)
    · exact eq_of_autoCommit ((hreply.resolve_right (by simp)).symm.trans hon)
  reads := fun _ _ => ⟨id, rfl⟩
  waits := fun _ _ _ => ⟨id, rfl⟩

end SqlMapper
