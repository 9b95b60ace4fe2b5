import SqlMapper.Connection.Settings
import SqlMapper.Time

/-!
A server behind a ledger, which numbers the connections in the order in which they are opened and
writes down every call that reaches one. It changes no answer.
-/

namespace SqlMapper

namespace Ledger

structure Opening where
  connection : Nat
  url : String
  properties : Entries String

structure Entry where
  /-- The wrapper of the holder who made the call. A call of the pool has none. -/
  caller : Option Nat
  connection : Nat
  call : Call
  reply : Except Error call.Reply

end Ledger

structure Ledger (ω : Type) where
  server : ω
  /-- The openings of the connections; the first one has the number 0. -/
  openings : List Ledger.Opening
  /-- The calls that were made, the latest first. -/
  entries : List Ledger.Entry

def Call.isStatement : Call → Bool
  | .execute _ | .query _ _ | .update _ _ => true
  | .close | .isClosed | .autoCommit | .setAutoCommit _ | .commit | .rollback | .setIsolation _
  | .setNetworkTimeout _ => false

namespace Ledger

/-- Whether the answer shows that no statement before the call is left uncommitted: the connection
commits by itself, or was rolled back. -/
def Entry.settles : Entry → Bool
  | ⟨_, _, .autoCommit, .ok commits⟩ => commits
  | ⟨_, _, .rollback, .ok _⟩ => true
  | _ => false

structure Entry.IsFair (e : Entry) : Prop where
  stays : e.call ≠ .close
  succeeds : e.call = .autoCommit ∨ e.call = .rollback → e.reply.toBool = true

variable {ω : Type}

def start (server : ω) : Ledger ω := ⟨server, [], []⟩

section

variable [Server ω]

def connect (url : String) (properties : Entries String) (l : Ledger ω) :
    Except Error Nat × Ledger ω :=
  match Server.connect url properties l.server with
  | (.ok connection, server) =>
    (.ok l.openings.length,
      { l with server := server, openings := l.openings ++ [⟨connection, url, properties⟩] })
  | (.error e, server) => (.error e, { l with server := server })

def answer (connection : Nat) (call : Call) (l : Ledger ω) : Except Error call.Reply × ω :=
  match l.openings[connection]? with
  | some opening => Server.perform opening.connection call l.server
  | none => (.error .connectionClosed, l.server)

def callFor (caller : Option Nat) (connection : Nat) (call : Call) (l : Ledger ω) :
    Except Error call.Reply × Ledger ω :=
  let (reply, server) := l.answer connection call
  (reply, { l with server := server, entries := ⟨caller, connection, call, reply⟩ :: l.entries })

instance : Server (Ledger ω) where
  connect := Ledger.connect
  perform := callFor none

end

instance [Clock ω] : Clock (Ledger ω) where
  read l :=
    let (now, server) := Clock.read l.server
    (now, { l with server := server })
  waitUntil t l := { l with server := Clock.waitUntil t l.server }

def isClosed (connection : Nat) (entries : List Entry) : Bool :=
  entries.any fun e => e.connection == connection && e.call == .close

/-- After every statement that ran on a connection, the pool found that the connection commits by
itself, or rolled it back. The latest entry comes first. -/
def IsClean (connection : Nat) (entries : List Entry) : Prop :=
  ∀ later e earlier, entries = later ++ e :: earlier → e.connection = connection →
    e.call.isStatement → ∃ x ∈ later, x.connection = connection ∧ x.caller = none ∧ x.settles

def IsFairAt (connection : Nat) (entries : List Entry) : Prop :=
  ∀ e ∈ entries, e.connection = connection → e.caller = none → e.IsFair

def IsAbout (connection : Nat) (entries : List Entry) : Prop :=
  ∀ e ∈ entries, e.caller = none ∧ e.connection = connection

def EndsSettled (entries : List Entry) : Prop := ∃ e ∈ entries.head?, e.settles

/-- What the pool wrote about a connection that it still can hand out: every entry is fair, and
no statement is left uncommitted. -/
structure IsSound (connection : Nat) (entries : List Entry) : Prop where
  about : IsAbout connection entries
  fair : ∀ e ∈ entries, e.IsFair
  clean : IsClean connection entries

variable {n : Nat} {es l : List Entry}

theorem isClosed_append : isClosed n (es ++ l) = (isClosed n es || isClosed n l) :=
  List.any_append

theorem isFairAt_append (hes : ∀ e ∈ es, e.connection = n → e.caller = none → e.IsFair)
    (hl : IsFairAt n l) : IsFairAt n (es ++ l) := by
  intro e he
  rcases List.mem_append.mp he with he | he
  · exact hes e he
  · exact hl e he

theorem isAbout_append (hes : IsAbout n es) (hl : IsAbout n l) : IsAbout n (es ++ l) := by
  intro e he
  rcases List.mem_append.mp he with he | he
  · exact hes e he
  · exact hl e he

theorem isClean_of_quiet (h : ∀ e ∈ es, e.connection = n → e.call.isStatement = false) :
    IsClean n es := by
  intro later e earlier heq hn hs
  have := h e (by simp [heq]) hn
  exact absurd hs (by simp [this])

/-- A connection that is clean in two parts of a ledger is clean in both of them together. -/
theorem isClean_append (hes : IsClean n es) (hl : IsClean n l) : IsClean n (es ++ l) := by
  intro later e earlier heq hn hs
  -- The statement stands in one of the two parts, and its settling entry in the same part.
  rcases List.append_eq_append_iff.mp heq with ⟨mid, rfl, hmid⟩ | ⟨mid, rfl, hmid⟩
  · obtain ⟨x, hx, hrest⟩ := hl mid e earlier hmid hn hs
    exact ⟨x, List.mem_append_right es hx, hrest⟩
  · cases mid with
    | nil =>
      obtain ⟨x, hx, -⟩ := hl [] e earlier hmid.symm hn hs
      exact absurd hx List.not_mem_nil
    | cons y mid =>
      obtain ⟨rfl, rfl⟩ := List.cons.inj hmid
      exact hes later e mid rfl hn hs

theorem not_statement_of_settles {e : Entry} (h : e.settles = true) :
    e.call.isStatement = false := by
  obtain ⟨caller, connection, call, reply⟩ := e
  cases call <;> first | rfl | simp [Entry.settles] at h

/-- A connection whose last entry settles it is clean, whatever was written before. -/
theorem isClean_of_endsSettled (ha : IsAbout n es) (hs : EndsSettled es) :
    IsClean n (es ++ l) := by
  obtain ⟨x, hx, hset⟩ := hs
  obtain ⟨rest, rfl⟩ : ∃ rest, es = x :: rest := List.head?_eq_some_iff.mp hx
  intro later e earlier heq hn hst
  cases later with
  | nil =>
    obtain ⟨rfl, -⟩ := List.cons.inj heq
    exact absurd hst (by simp [not_statement_of_settles hset])
  | cons y later =>
    obtain ⟨rfl, -⟩ := List.cons.inj heq
    have := ha x (by simp)
    exact ⟨x, by simp, this.2, this.1, hset⟩

theorem isSound_nil : IsSound n [] := by
  refine ⟨?_, ?_, isClean_of_quiet ?_⟩ <;> simp [IsAbout]

theorem IsSound.append (hes : IsSound n es) (hl : IsSound n l) : IsSound n (es ++ l) where
  about := isAbout_append hes.about hl.about
  fair e he := (List.mem_append.mp he).elim (hes.fair e) (hl.fair e)
  clean := isClean_append hes.clean hl.clean

theorem IsSound.isClosed (h : IsSound n es) (m : Nat) : isClosed m es = false := by
  rw [Ledger.isClosed, List.any_eq_false]
  intro e he
  simp [(h.fair e he).stays]

end Ledger
end SqlMapper
