import SqlMapper.Proofs.Pool.Sections

/-!
One acquisition on a pool on which nobody else acts, except to interrupt those who wait, with a
record of the candidates that it tries. The trials are those of the pool's order.
-/

namespace SqlMapper

open Connection Ledger

inductive Origin where
  | idle
  | opened
  | reclaimed
  deriving DecidableEq

structure Trial where
  origin : Origin
  slot : Slot
  time : Instant
  verdict : Option Bool

def Origin.count (origin : Origin) (ts : List Trial) : Nat := ts.countP (·.origin = origin)

theorem Origin.count_cons (origin : Origin) (t : Trial) (ts : List Trial) :
    origin.count (t :: ts) = origin.count ts + if t.origin = origin then 1 else 0 := by
  simp only [count, List.countP_cons, decide_eq_true_eq]

namespace Pool

def origin (p : Pool) : Origin :=
  if p.idle.isEmpty then if p.hasRoom then .opened else .reclaimed else .idle

def without (ts : List Trial) (p : Pool) : Pool :=
  { p with
    idle := p.idle.drop (Origin.idle.count ts)
    active := p.active.drop (Origin.reclaimed.count ts) }

/-- A pool has no candidate: nothing is idle, there is no room, and nothing has been in use for too
long. -/
structure Exhausted (p : Pool) (now : Instant) : Prop where
  idle : p.idle = []
  room : p.hasRoom = false
  active : ∀ oldest ∈ p.active.head?, p.isOverdue now oldest = false

variable (p : Pool) {ts : List Trial} {t : Trial}

theorem idle_without_cons : (p.without (t :: ts)).idle =
    if t.origin = .idle then (p.without ts).idle.tail else (p.without ts).idle := by
  simp only [without, Origin.count_cons]
  split
  · rw [List.tail_drop]
  · rw [Nat.add_zero]

theorem active_without_cons : (p.without (t :: ts)).active =
    if t.origin = .reclaimed then (p.without ts).active.tail else (p.without ts).active := by
  simp only [without, Origin.count_cons]
  split
  · rw [List.tail_drop]
  · rw [Nat.add_zero]

theorem isLive_newSlot_iff (now : Instant) (connection : Nat) {wrapper : Nat} :
    (p.newSlot now connection).2.isLive wrapper = true ↔
      wrapper = p.wrappers + 1 ∨ p.isLive wrapper = true := by
  simp [newSlot, newWrapper, isLive]

theorem isLive_reclaim_iff (now : Instant) (oldest : Slot) (rest : List Slot) {wrapper : Nat} :
    (p.reclaim now oldest rest).2.isLive wrapper = true ↔
      wrapper = p.wrappers + 1 ∨ p.isLive wrapper = true ∧ wrapper ≠ oldest.wrapper := by
  simp [reclaim, rewrap, invalidate, newWrapper, isLive]

end Pool

def Acquisition.looks (a : Acquisition) (p : Pool) : Bool :=
  match a.phase with
  | .starting => true
  | .parked _ _ => p.epoch == a.epoch
  | .discarded bad => !bad || decide (a.bad + 1 ≤ p.config.badLimit)
  | .checking _ _ _ _ | .checked _ _ _ | .discarding _ _ | .done _ => false

structure Attempt (ω : Type) where
  acquisition : Acquisition
  pool : Pool
  ledger : Ledger ω
  /-- The candidates that were tried, the latest first. -/
  trials : List Trial
  refusals : List Error

namespace Attempt

variable {ω : Type}

def note (origin : Origin) (now : Instant) (found : Except Error (Option (Slot × Bool)))
    (s : Attempt ω) : Attempt ω :=
  match found with
  | .ok (some (slot, _)) => { s with trials := ⟨origin, slot, now, none⟩ :: s.trials }
  | .ok none => s
  | .error e => { s with refusals := e :: s.refusals }

def judge (phase : Phase) (ts : List Trial) : List Trial :=
  match phase, ts with
  | .checked _ _ good, t :: ts => { t with verdict := some good } :: ts
  | _, ts => ts

inductive Turn where
  | goesOn
  | interrupts
  | wakesAll

variable [Server ω] [Clock ω]

def begin (username password : Option String) (p : Pool) (l : Ledger ω) : Attempt ω :=
  let (now, l) := Clock.read l
  ⟨.start username password now, p, l, [], []⟩

def advance (s : Attempt ω) : Attempt ω :=
  let after := s.acquisition.step undisturbed s.pool s.ledger
  let s' : Attempt ω := { s with acquisition := after.1, pool := after.2.1, ledger := after.2.2 }
  if s.acquisition.looks s.pool then
    let read := Clock.read s.ledger
    s'.note s.pool.origin read.1
      (s.pool.candidate read.1 s.acquisition.username s.acquisition.password read.2).1
  else { s' with trials := judge after.1.phase s.trials }

def goOn (s : Attempt ω) : Attempt ω :=
  match s.acquisition.result? with
  | some _ => s
  | none =>
    match s.acquisition.sleep? s.pool s.ledger with
    | none => s
    | some l => { s with ledger := l }.advance

def turn (s : Attempt ω) : Turn → Attempt ω
  | .goesOn => s.goOn
  | .interrupts => { s with pool := s.pool.nextEpoch }
  | .wakesAll => { s with pool := s.pool.notifyAll }

def run (s : Attempt ω) (turns : List Turn) : Attempt ω := turns.foldl turn s

end Attempt

inductive Trial.IsNext {ω : Type} (p : Pool) (l : Ledger ω) (earlier : List Trial) : Trial → Prop
  | idle {slot : Slot} {rest : List Slot} {time : Instant} {verdict : Option Bool}
      (hidle : (p.without earlier).idle = slot :: rest) :
    IsNext p l earlier ⟨.idle, slot, time, verdict⟩
  | opened {slot : Slot} {time : Instant} {verdict : Option Bool}
      (hidle : (p.without earlier).idle = []) (hroom : (p.without earlier).hasRoom = true)
      (hnew : l.openings.length ≤ slot.physical.connection) :
    IsNext p l earlier ⟨.opened, slot, time, verdict⟩
  | reclaimed {slot oldest : Slot} {rest : List Slot} {time : Instant} {verdict : Option Bool}
      (hidle : (p.without earlier).idle = []) (hroom : (p.without earlier).hasRoom = false)
      (hactive : (p.without earlier).active = oldest :: rest)
      (hoverdue : p.isOverdue time oldest = true) (hphysical : slot.physical = oldest.physical) :
    IsNext p l earlier ⟨.reclaimed, slot, time, verdict⟩

namespace Attempt

variable {ω : Type}

def InOrder (p : Pool) (l : Ledger ω) : List Trial → Prop
  | [] => True
  | t :: earlier => t.IsNext p l earlier ∧ InOrder p l earlier

/-- A wrapper was live at the start, and belongs to no candidate and to nobody from whom one was
taken. -/
def Spared (p : Pool) (ts : List Trial) (wrapper : Nat) : Prop :=
  p.isLive wrapper = true ∧ (∀ t ∈ ts, t.slot.wrapper ≠ wrapper) ∧
    ∀ slot ∈ p.active.take (Origin.reclaimed.count ts), slot.wrapper ≠ wrapper

theorem Spared.cons {p : Pool} {ts : List Trial} {t : Trial} {wrapper : Nat}
    (h : Spared p ts wrapper) (hslot : t.slot.wrapper ≠ wrapper)
    (hheld : t.origin = .reclaimed → ∀ slot ∈ (p.without ts).active.head?, slot.wrapper ≠ wrapper) :
    Spared p (t :: ts) wrapper := by
  obtain ⟨hlive, hslots, hothers⟩ := h
  refine ⟨hlive, List.forall_mem_cons.mpr ⟨hslot, hslots⟩, fun slot hmem => ?_⟩
  rw [Origin.count_cons] at hmem
  split at hmem
  · rename_i horigin
    rw [List.take_add_one, List.mem_append, Option.mem_toList, ← List.head?_drop] at hmem
    exact hmem.elim (hothers slot) (hheld horigin slot)
  · exact hothers slot hmem

/-- What is left of a pool and a ledger after trials, one of which may have its candidate being
checked. Those whose connections were closed are among them. -/
structure Left (p₀ : Pool) (l₀ : Ledger ω) (ts closed : List Trial) (checked : Option Trial)
    (p : Pool) (l : Ledger ω) : Prop where
  config : p.config = p₀.config
  settings : p.settings = p₀.settings
  generation : p.generation = p₀.generation
  idle : p.idle = (p₀.without ts).idle
  active : p.active = (p₀.without ts).active
  pending : p.pending = p₀.pending + checked.toList.length
  requests : p.tallies.requests = p₀.tallies.requests
  inOrder : InOrder p₀ l₀ ts
  openings : l₀.openings.length ≤ l.openings.length
  live : ∀ wrapper, p.isLive wrapper = true →
    checked.map (·.slot.wrapper) = some wrapper ∨ Spared p₀ ts wrapper
  entries : ∃ es, l.entries = es ++ l₀.entries ∧
    ∀ t ∈ closed, isClosed t.slot.physical.connection es = true

namespace Left

variable {p₀ p q : Pool} {l₀ l l' : Ledger ω} {ts closed : List Trial} {checked : Option Trial}
  {t : Trial}

/-- More was opened and written. -/
theorem grows (h : Left p₀ l₀ ts closed checked p l) {es : List Entry}
    (hopenings : l.openings <+: l'.openings) (hentries : l'.entries = es ++ l.entries) :
    Left p₀ l₀ ts closed checked p l' := by
  obtain ⟨es₀, hentries₀, hclosed⟩ := h.entries
  refine { h with
    openings := Nat.le_trans h.openings hopenings.length_le
    entries := ⟨es ++ es₀, ?_, fun t ht => ?_⟩ }
  · rw [hentries, hentries₀, List.append_assoc]
  · rw [isClosed_append, hclosed t ht, Bool.or_true]

theorem writes (h : Left p₀ l₀ ts closed checked p l) {n : Nat} {es : List Entry}
    (hw : Writes n es l l') : Left p₀ l₀ ts closed checked p l' :=
  h.grows (hw.openings ▸ List.prefix_refl l'.openings) hw.entries

/-- A candidate is judged; what the record says of it otherwise stays. -/
theorem judged (h : Left p₀ l₀ (t :: ts) closed (some t) p l) (good : Bool) :
    Left p₀ l₀ ({ t with verdict := some good } :: ts) closed
      (some { t with verdict := some good }) p l := by
  have hcount (origin : Origin) :
      origin.count ({ t with verdict := some good } :: ts) = origin.count (t :: ts) := by
    simp only [Origin.count, List.countP_cons]
  have hwithout : p₀.without ({ t with verdict := some good } :: ts) = p₀.without (t :: ts) := by
    simp only [Pool.without, hcount]
  refine { h with
    idle := hwithout ▸ h.idle
    active := hwithout ▸ h.active
    inOrder := ⟨?_, h.inOrder.2⟩
    live := fun wrapper hlive => ?_ }
  · obtain ⟨hnext, -⟩ := h.inOrder
    cases hnext with
    | idle hidle => exact .idle hidle
    | opened hidle hroom hnew => exact .opened hidle hroom hnew
    | reclaimed hidle hroom hactive hoverdue hphysical =>
      exact .reclaimed hidle hroom hactive hoverdue hphysical
  · refine (h.live wrapper hlive).imp_right ?_
    rintro ⟨hlive, hslots, hheld⟩
    refine ⟨hlive, ?_, (hcount .reclaimed) ▸ hheld⟩
    exact List.forall_mem_cons.mpr (List.forall_mem_cons.mp hslots)

/-- The candidate is rejected, and nobody can use its connection any more. -/
theorem rejects (h : Left p₀ l₀ (t :: ts) closed (some t) p l) :
    Left p₀ l₀ (t :: ts) closed none
      ({ p with pending := p.pending - 1 }.invalidate t.slot.wrapper) l := by
  refine { h with pending := ?_, live := fun wrapper hlive => ?_ }
  · have hpending : p.pending = p₀.pending + 1 := h.pending
    change p.pending - 1 = p₀.pending + 0
    omega
  · obtain ⟨hlive, hne⟩ : p.isLive wrapper = true ∧ wrapper ≠ t.slot.wrapper := by
      simpa [Pool.isLive, Pool.invalidate] using hlive
    refine .inr ((h.live wrapper hlive).resolve_left ?_)
    exact fun hw => hne (Option.some.inj hw).symm

theorem closes (h : Left p₀ l₀ (t :: ts) ts none p l) {es : List Entry}
    (hw : Writes t.slot.physical.connection es l l')
    (hclosed : isClosed t.slot.physical.connection es = true) :
    Left p₀ l₀ (t :: ts) (t :: ts) none p l' := by
  obtain ⟨es₀, hentries, hothers⟩ := h.entries
  refine { h.writes hw with entries := ⟨es ++ es₀, ?_, ?_⟩ }
  · rw [hw.entries, hentries, List.append_assoc]
  · refine List.forall_mem_cons.mpr ⟨?_, fun t' ht' => ?_⟩
    · rw [isClosed_append, hclosed, Bool.true_or]
    · rw [isClosed_append, hothers t' ht', Bool.or_true]

theorem hasRoom_eq (h : Left p₀ l₀ ts closed none p l) :
    p.hasRoom = (p₀.without ts).hasRoom := by
  have hpending : p.pending = p₀.pending := h.pending
  simp only [Pool.hasRoom, h.config, h.active, hpending]
  rfl

/-- The oldest idle connection becomes the candidate. -/
theorem picks (h : Left p₀ l₀ ts ts none p l) {slot : Slot} {rest : List Slot}
    (hidle : p.idle = slot :: rest) (time : Instant) :
    Left p₀ l₀ (⟨.idle, slot, time, none⟩ :: ts) ts (some ⟨.idle, slot, time, none⟩)
      { p with idle := rest, pending := p.pending + 1 } l := by
  have hfound : (p₀.without ts).idle = slot :: rest := h.idle ▸ hidle
  refine { h with
    idle := ?_
    active := ?_
    pending := congrArg (· + 1) h.pending
    inOrder := ⟨.idle hfound, h.inOrder⟩
    live := fun wrapper hlive => ?_ }
  · rw [Pool.idle_without_cons, if_pos rfl, hfound]
    rfl
  · rw [Pool.active_without_cons, if_neg nofun]
    exact h.active
  · by_cases hw : slot.wrapper = wrapper
    · exact .inl (congrArg some hw)
    · exact .inr (((h.live wrapper hlive).resolve_left nofun).cons hw nofun)

/-- Without an idle connection a new one becomes the candidate if there is room. -/
theorem opens (h : Left p₀ l₀ ts ts none p l) {es : List Entry} (time : Instant)
    (hidle : p.idle = []) (hroom : p.hasRoom = true) {o : Opening}
    (hopenings : l'.openings = l.openings ++ [o]) (hentries : l'.entries = es ++ l.entries) :
    Left p₀ l₀ (⟨.opened, (p.newSlot time l.openings.length).1, time, none⟩ :: ts) ts
      (some ⟨.opened, (p.newSlot time l.openings.length).1, time, none⟩)
      { (p.newSlot time l.openings.length).2 with pending := p.pending + 1 } l' := by
  refine { h.grows (hopenings ▸ List.prefix_append _ _) hentries with
    idle := ?_
    active := ?_
    pending := congrArg (· + 1) h.pending
    inOrder := ⟨.opened (h.idle ▸ hidle) (h.hasRoom_eq ▸ hroom) h.openings, h.inOrder⟩
    live := fun wrapper hlive => ?_ }
  · rw [Pool.idle_without_cons, if_neg nofun]
    exact h.idle
  · rw [Pool.active_without_cons, if_neg nofun]
    exact h.active
  · rcases (p.isLive_newSlot_iff time l.openings.length).mp hlive with rfl | hold
    · exact .inl rfl
    · by_cases hw : p.wrappers + 1 = wrapper
      · exact .inl (congrArg some hw)
      · exact .inr (((h.live wrapper hold).resolve_left nofun).cons hw nofun)

/-- Without room the connection in use for longest becomes the candidate if it is overdue. -/
theorem reclaims (h : Left p₀ l₀ ts ts none p l) {oldest : Slot} {rest : List Slot}
    (time : Instant) (hidle : p.idle = []) (hroom : p.hasRoom = false)
    (hactive : p.active = oldest :: rest) (hoverdue : p.isOverdue time oldest = true) :
    Left p₀ l₀ (⟨.reclaimed, (p.reclaim time oldest rest).1, time, none⟩ :: ts) ts
      (some ⟨.reclaimed, (p.reclaim time oldest rest).1, time, none⟩)
      { (p.reclaim time oldest rest).2 with pending := p.pending + 1 } l := by
  have hfound : (p₀.without ts).active = oldest :: rest := h.active ▸ hactive
  have hlate : p₀.isOverdue time oldest = true := by
    rw [← hoverdue, Pool.isOverdue, Pool.isOverdue, h.config]
  refine { h with
    idle := ?_
    active := ?_
    pending := congrArg (· + 1) h.pending
    inOrder := ⟨.reclaimed (h.idle ▸ hidle) (h.hasRoom_eq ▸ hroom) hfound hlate rfl, h.inOrder⟩
    live := fun wrapper hlive => ?_ }
  · rw [Pool.idle_without_cons, if_neg nofun]
    exact h.idle
  · rw [Pool.active_without_cons, if_pos rfl, hfound]
    rfl
  · rcases (p.isLive_reclaim_iff time oldest rest).mp hlive with rfl | ⟨hold, hne⟩
    · exact .inl rfl
    · by_cases hw : p.wrappers + 1 = wrapper
      · exact .inl (congrArg some hw)
      · refine .inr (((h.live wrapper hold).resolve_left nofun).cons hw fun _ slot hslot => ?_)
        rw [hfound] at hslot
        exact Option.some.inj hslot ▸ hne.symm

end Left

structure Met (p₀ : Pool) (ts : List Trial) (a : Acquisition) (p : Pool) : Prop where
  failed : ∀ t ∈ ts, t.verdict = some false
  bad : a.bad = ts.length
  counted : p.tallies.bad = p₀.tallies.bad + ts.length
  within : ts.length ≤ p₀.config.badLimit

inductive Failure (p₀ : Pool) (ts : List Trial) (startedAt : Instant) :
    Error → List Error → Prop where
  | refused {e : Error} (hwithin : ts.length ≤ p₀.config.badLimit) : Failure p₀ ts startedAt e [e]
  | interrupted (hwithin : ts.length ≤ p₀.config.badLimit) : Failure p₀ ts startedAt .interrupted []
  | timedOut {now : Instant} (hwithin : ts.length ≤ p₀.config.badLimit)
      (hnone : (p₀.without ts).Exhausted now) :
    Failure p₀ ts startedAt (.poolTimeout (now.since startedAt).millis) []
  | tooMany (hlimit : ts.length = p₀.config.badLimit + 1) :
    Failure p₀ ts startedAt (Pool.tooManyBad ts.length p₀.config.badLimit) []

structure Gives (q : Pool) (slot : Slot) (p : Pool) : Prop where
  idle : p.idle = q.idle
  active : p.active = q.active ++ [slot]
  pending : p.pending = q.pending - 1
  live : p.live = q.live
  bad : p.tallies.bad = q.tallies.bad
  requests : p.tallies.requests = q.tallies.requests + 1

inductive Course (p₀ : Pool) (l₀ : Ledger ω) : Attempt ω → Prop where
  | looking {a : Acquisition} {p : Pool} {l : Ledger ω} {ts : List Trial}
      (hphase : a.phase = .starting ∨ ∃ ticket wakeAt, a.phase = .parked ticket wakeAt)
      (hleft : Left p₀ l₀ ts ts none p l) (hmet : Met p₀ ts a p) :
    Course p₀ l₀ ⟨a, p, l, ts, []⟩
  | checking {a : Acquisition} {p : Pool} {l : Ledger ω} {t : Trial} {ts : List Trial}
      {config : PoolConfig} {left : List Slot.Test}
      (hphase : a.phase = .checking t.slot config p₀.generation left)
      (hleft : Left p₀ l₀ (t :: ts) ts (some t) p l) (hmet : Met p₀ ts a p) :
    Course p₀ l₀ ⟨a, p, l, t :: ts, []⟩
  | checked {a : Acquisition} {p : Pool} {l : Ledger ω} {t : Trial} {ts : List Trial} {good : Bool}
      (hphase : a.phase = .checked t.slot p₀.generation good) (hverdict : t.verdict = some good)
      (hleft : Left p₀ l₀ (t :: ts) ts (some t) p l) (hmet : Met p₀ ts a p) :
    Course p₀ l₀ ⟨a, p, l, t :: ts, []⟩
  | discarding {a : Acquisition} {p : Pool} {l : Ledger ω} {t : Trial} {ts : List Trial}
      (hphase : a.phase = .discarding t.slot true) (hverdict : t.verdict = some false)
      (hleft : Left p₀ l₀ (t :: ts) ts none p l) (hmet : Met p₀ ts a p) :
    Course p₀ l₀ ⟨a, p, l, t :: ts, []⟩
  | discarded {a : Acquisition} {p : Pool} {l : Ledger ω} {t : Trial} {ts : List Trial}
      (hphase : a.phase = .discarded true) (hverdict : t.verdict = some false)
      (hleft : Left p₀ l₀ (t :: ts) (t :: ts) none p l) (hmet : Met p₀ ts a p) :
    Course p₀ l₀ ⟨a, p, l, t :: ts, []⟩
  | failed {a : Acquisition} {p : Pool} {l : Ledger ω} {ts : List Trial} {e : Error}
      {refusals : List Error} (hphase : a.phase = .done (.error e))
      (hleft : Left p₀ l₀ ts ts none p l) (hfailed : ∀ t ∈ ts, t.verdict = some false)
      (hcounted : p.tallies.bad = p₀.tallies.bad + ts.length)
      (hfailure : Failure p₀ ts a.startedAt e refusals) :
    Course p₀ l₀ ⟨a, p, l, ts, refusals⟩
  | handedOut {a b : Acquisition} {p q : Pool} {l : Ledger ω} {t : Trial} {ts : List Trial}
      {slot : Slot} (hphase : a.phase = .done (.ok slot.handle)) (hverdict : t.verdict = some true)
      (hwrapper : slot.wrapper = t.slot.wrapper) (hphysical : slot.physical = t.slot.physical)
      (hleft : Left p₀ l₀ (t :: ts) ts (some t) q l) (hmet : Met p₀ ts b q)
      (hgives : Gives q slot p) :
    Course p₀ l₀ ⟨a, p, l, t :: ts, []⟩

structure Failed (p₀ : Pool) (l₀ : Ledger ω) (s : Attempt ω) (e : Error) : Prop where
  left : Left p₀ l₀ s.trials s.trials none s.pool s.ledger
  failed : ∀ t ∈ s.trials, t.verdict = some false
  counted : s.pool.tallies.bad = p₀.tallies.bad + s.trials.length
  failure : Failure p₀ s.trials s.acquisition.startedAt e s.refusals

theorem Course.failed_of_result {p₀ : Pool} {l₀ : Ledger ω} {s : Attempt ω} (h : Course p₀ l₀ s)
    {e : Error} (hresult : s.acquisition.result? = some (.error e)) : Failed p₀ l₀ s e := by
  unfold Acquisition.result? at hresult
  cases h with
  | failed hphase hleft hfailed hcounted hfailure =>
    rw [hphase] at hresult
    cases hresult
    exact ⟨hleft, hfailed, hcounted, hfailure⟩
  | looking hphase =>
    rcases hphase with hphase | ⟨ticket, wakeAt, hphase⟩ <;> rw [hphase] at hresult <;>
      exact nomatch hresult
  | checking hphase | checked hphase | discarding hphase | discarded hphase | handedOut hphase =>
    rw [hphase] at hresult
    exact nomatch hresult

section Steps

variable {p₀ p q : Pool} {l₀ l : Ledger ω} {ts : List Trial} {a b : Acquisition} {now : Instant}

theorem Left.turns {closed : List Trial} {checked : Option Trial}
    (h : Left p₀ l₀ ts closed checked p l) (hturn : a.Turns now p b q) :
    Left p₀ l₀ ts closed checked q l := by
  cases hturn <;> exact { h with }

variable [Server ω]

omit [Server ω] in
theorem origin_turns (hturn : a.Turns now p b q) : q.origin = p.origin := by
  cases hturn <;> rfl

/-- What is found does not depend on who waits and on what was counted. -/
theorem found_turns (hturn : a.Turns now p b q) :
    (q.candidate now b.username b.password l).1 = (p.candidate now a.username a.password l).1 := by
  have hsame (parked : List Nat) (tallies : Tallies) :
      ({ p with parked := parked, tallies := tallies }.candidate now a.username a.password l).1 =
        (p.candidate now a.username a.password l).1 := by
    obtain ⟨config, settings, idle, active, pending⟩ := p
    simp only [Pool.candidate, Pool.hasRoom, Pool.isOverdue]
    cases idle with
    | cons slot rest => rfl
    | nil =>
      by_cases hroom : active.length + pending < config.maxActive.toNat
      · simp only [hroom, decide_true, if_true]
        rcases (settings.connect a.username a.password).run l with ⟨e | connection, l'⟩ <;> rfl
      · simp only [hroom, decide_false, if_false, Bool.false_eq_true]
        cases active with
        | nil => rfl
        | cons oldest rest =>
          by_cases hlate : config.maxCheckoutTime.nanos < (now.since oldest.checkoutAt).nanos
          · simp only [hlate, decide_true, if_true]
            rfl
          · simp only [hlate, decide_false, if_false, Bool.false_eq_true]
  cases hturn with
  | enters hphase => rfl
  | wakes hphase hepoch => exact hsame _ _
  | outdated hphase => exact hsame _ _
  | bad hphase => exact hsame _ _

/-- A look leads to a check, or to a wait, or it is the end. -/
theorem course_examine (hleft : Left p₀ l₀ ts ts none q l) (hmet : Met p₀ ts b q)
    (now : Instant) :
    Course p₀ l₀ (note q.origin now (q.candidate now b.username b.password l).1
      ⟨(q.examine now b l).1, (q.examine now b l).2.1, (q.examine now b l).2.2, ts, []⟩) := by
  have hchoice := q.candidate_choice now b.username b.password l
  have hchecking (slot : Slot) (tests : List Slot.Test) :
      (b.goTo (.checking slot q.config q.generation tests)).phase =
        .checking slot q.config p₀.generation tests := by
    rw [← hleft.generation]
    rfl
  unfold Pool.examine
  generalize q.candidate now b.username b.password l = r at hchoice ⊢
  cases hchoice with
  | idle hidle =>
    have horigin : q.origin = .idle := by simp [Pool.origin, hidle]
    rw [horigin]
    exact .checking (hchecking _ _) (hleft.picks hidle now) { hmet with }
  | refused hidle hroom hconnect =>
    have hc := q.settings.connects b.username b.password l
    rw [hconnect] at hc
    refine .failed rfl ?_ hmet.failed hmet.counted (.refused hmet.within)
    cases hc with
    | refused e hopenings hentries =>
      exact hleft.grows (hopenings ▸ List.prefix_refl _) (List.nil_append l.entries ▸ hentries)
    | failed e o es hurl hproperties hopenings hentries habout hclosed =>
      exact hleft.grows (hopenings ▸ List.prefix_append _ _) hentries
  | opened hidle hroom hconnect =>
    have horigin : q.origin = .opened := by simp [Pool.origin, hidle, hroom]
    have hc := q.settings.connects b.username b.password l
    rw [hconnect] at hc
    rw [horigin]
    cases hc with
    | opened o es hurl hproperties hopenings hentries hsound =>
      exact .checking (hchecking _ _) (hleft.opens now hidle hroom hopenings hentries) { hmet with }
  | reclaimed hidle hroom hactive hoverdue =>
    have horigin : q.origin = .reclaimed := by simp [Pool.origin, hidle, hroom]
    rw [horigin]
    exact .checking (hchecking _ _) (hleft.reclaims now hidle hroom hactive hoverdue) { hmet with }
  | nothing hidle hroom hoverdue =>
    dsimp only
    split
    · refine .failed rfl hleft hmet.failed hmet.counted (.timedOut hmet.within ?_)
      refine ⟨hleft.idle ▸ hidle, hleft.hasRoom_eq ▸ hroom, fun oldest holdest => ?_⟩
      rw [← hleft.active] at holdest
      rw [← hoverdue oldest holdest, Pool.isOverdue, Pool.isOverdue, hleft.config]
      rfl
    · exact .looking (.inr ⟨_, _, rfl⟩) { hleft with } { hmet with }

variable [Clock ω] {s : Attempt ω}

/-- Whoever looks comes to it in one of the ways to the pool. -/
theorem turns_of_looks (hlooks : a.looks p = true) (l : Ledger ω) :
    ∃ b q, a.Turns (Clock.read l).1 p b q ∧
      a.step undisturbed p l = q.examine (Clock.read l).1 b (Clock.read l).2 := by
  unfold Acquisition.looks at hlooks
  unfold Acquisition.step
  cases hphase : a.phase with
  | starting => exact ⟨_, _, .enters hphase, rfl⟩
  | parked ticket wakeAt =>
    rw [hphase] at hlooks
    have hepoch : p.epoch = a.epoch := beq_iff_eq.mp hlooks
    dsimp only [Pool.wake]
    rw [if_neg (not_not.mpr hepoch)]
    exact ⟨_, _, .wakes hphase hepoch, rfl⟩
  | discarded bad =>
    rw [hphase] at hlooks
    cases bad with
    | true =>
      have hlimit : a.bad + 1 ≤ p.config.badLimit := of_decide_eq_true hlooks
      exact ⟨_, _, .bad hphase, if_neg (Nat.not_lt.mpr hlimit)⟩
    | false => exact ⟨_, _, .outdated hphase, rfl⟩
  | checking | checked | discarding | done =>
    rw [hphase] at hlooks
    exact nomatch hlooks

theorem course_advance_looks (hlooks : s.acquisition.looks s.pool = true)
    (hrefusals : s.refusals = []) (hleft : Left p₀ l₀ s.trials s.trials none s.pool s.ledger)
    (hmet : ∀ b q, s.acquisition.Turns (Clock.read s.ledger).1 s.pool b q →
      Met p₀ s.trials b q) : Course p₀ l₀ s.advance := by
  obtain ⟨b, q, hturn, hstep⟩ := turns_of_looks hlooks s.ledger
  have hleft' : Left p₀ l₀ s.trials s.trials none q (Clock.read s.ledger).2 :=
    { hleft.turns hturn with }
  have hcourse := course_examine hleft' (hmet b q hturn) (Clock.read s.ledger).1
  rw [origin_turns hturn, found_turns hturn, ← hstep, ← hrefusals] at hcourse
  unfold advance
  dsimp only
  rw [if_pos hlooks]
  exact hcourse

theorem advance_of_not_looks (hlooks : s.acquisition.looks s.pool = false)
    {a : Acquisition} {p : Pool} {l : Ledger ω}
    (hstep : s.acquisition.step undisturbed s.pool s.ledger = (a, p, l)) :
    s.advance = ⟨a, p, l, judge a.phase s.trials, s.refusals⟩ := by
  unfold advance
  dsimp only
  rw [hlooks, if_neg nofun, hstep]

/-- Whoever was interrupted while waiting finds out, and looks no more. -/
theorem step_interrupted {ticket : Nat} {wakeAt : Option Instant}
    (hphase : a.phase = .parked ticket wakeAt) (hepoch : p.epoch ≠ a.epoch) (l : Ledger ω) :
    ∃ waitTime, a.step undisturbed p l =
      ({ a with waitingSince := some (Clock.read l).1 }.fail .interrupted,
        { p with
          parked := p.parked.filter (· != ticket)
          tallies := { p.tallies with waitTime := waitTime } }, (Clock.read l).2) := by
  unfold Acquisition.step
  rw [hphase]
  dsimp only [Pool.wake]
  rw [if_pos hepoch]
  exact ⟨_, rfl⟩

theorem course_advance_looking (hphase : a.phase = .starting ∨
    ∃ ticket wakeAt, a.phase = .parked ticket wakeAt) (hleft : Left p₀ l₀ ts ts none p l)
    (hmet : Met p₀ ts a p) : Course p₀ l₀ (advance ⟨a, p, l, ts, []⟩) := by
  cases hlooks : a.looks p with
  | true =>
    refine course_advance_looks hlooks rfl hleft fun b q hturn => ?_
    cases hturn with
    | enters hstarting => exact { hmet with }
    | wakes hparked hepoch => exact { hmet with }
    | outdated hdiscarded | bad hdiscarded =>
      rcases hphase with hphase | ⟨ticket, wakeAt, hphase⟩ <;>
        exact nomatch hphase.symm.trans hdiscarded
  | false =>
    rcases hphase with hphase | ⟨ticket, wakeAt, hphase⟩
    · exact absurd hlooks (by simp [Acquisition.looks, hphase])
    have hepoch : p.epoch ≠ a.epoch := by simpa [Acquisition.looks, hphase] using hlooks
    obtain ⟨waitTime, hstep⟩ := step_interrupted hphase hepoch l
    rw [advance_of_not_looks hlooks hstep]
    exact .failed rfl { hleft with } hmet.failed hmet.counted (.interrupted hmet.within)

theorem course_advance_checking {t : Trial} {config : PoolConfig} {left : List Slot.Test}
    (hphase : a.phase = .checking t.slot config p₀.generation left)
    (hleft : Left p₀ l₀ (t :: ts) ts (some t) p l) (hmet : Met p₀ ts a p) :
    Course p₀ l₀ (advance ⟨a, p, l, t :: ts, []⟩) := by
  have hlooks : a.looks p = false := by simp [Acquisition.looks, hphase]
  have hread : Left p₀ l₀ (t :: ts) ts (some t) p (Clock.read l).2 := { hleft with }
  cases left with
  | nil =>
    have hstep : a.step undisturbed p l =
        (a.goTo (.checked t.slot p₀.generation true), p, (Clock.read l).2) := by
      unfold Acquisition.step
      rw [hphase]
    rw [advance_of_not_looks hlooks hstep]
    exact .checked rfl rfl (hread.judged true) { hmet with }
  | cons test left =>
    obtain ⟨es, hw, -⟩ := t.slot.records_passes config (Clock.read l).1
      (p.isLive t.slot.wrapper) test (Clock.read l).2
    have hstep : a.step undisturbed p l = (a.goTo
        (if (t.slot.passes config (Clock.read l).1 (p.isLive t.slot.wrapper) test
          (Clock.read l).2).1 then .checking t.slot config p₀.generation left
          else .checked t.slot p₀.generation false), p,
        (t.slot.passes config (Clock.read l).1 (p.isLive t.slot.wrapper) test
          (Clock.read l).2).2) := by
      unfold Acquisition.step
      rw [hphase]
      rfl
    rw [advance_of_not_looks hlooks hstep]
    split
    · exact .checking rfl (hread.writes hw) { hmet with }
    · exact .checked rfl rfl ((hread.writes hw).judged false) { hmet with }

theorem course_advance_checked {t : Trial} {good : Bool}
    (hphase : a.phase = .checked t.slot p₀.generation good) (hverdict : t.verdict = some good)
    (hleft : Left p₀ l₀ (t :: ts) ts (some t) p l) (hmet : Met p₀ ts a p) :
    Course p₀ l₀ (advance ⟨a, p, l, t :: ts, []⟩) := by
  have hlooks : a.looks p = false := by simp [Acquisition.looks, hphase]
  have hread : Left p₀ l₀ (t :: ts) ts (some t) p (Clock.read l).2 := { hleft with }
  have hstep : a.step undisturbed p l =
      ((p.conclude (Clock.read l).1 t.slot p₀.generation good a).1,
        (p.conclude (Clock.read l).1 t.slot p₀.generation good a).2, (Clock.read l).2) := by
    unfold Acquisition.step
    rw [hphase]
  rw [advance_of_not_looks hlooks hstep]
  unfold Pool.conclude
  dsimp only
  rw [if_neg (not_not.mpr hleft.generation)]
  cases good with
  | true => exact .handedOut rfl hverdict rfl rfl hread hmet ⟨rfl, rfl, rfl, rfl, rfl, rfl⟩
  | false => exact .discarding rfl hverdict hread.rejects { hmet with }

theorem course_advance_discarding {t : Trial} (hphase : a.phase = .discarding t.slot true)
    (hverdict : t.verdict = some false) (hleft : Left p₀ l₀ (t :: ts) ts none p l)
    (hmet : Met p₀ ts a p) : Course p₀ l₀ (advance ⟨a, p, l, t :: ts, []⟩) := by
  have hlooks : a.looks p = false := by simp [Acquisition.looks, hphase]
  have hread : Left p₀ l₀ (t :: ts) ts none p (Clock.read l).2 := { hleft with }
  obtain ⟨es, hw, hclosed⟩ := records_closeQuietly (n := t.slot.physical.connection)
    (Clock.read l).2
  have hstep : a.step undisturbed p l = (a.goTo (.discarded true), p,
      (closeQuietly t.slot.physical.connection (Clock.read l).2).2) := by
    unfold Acquisition.step
    rw [hphase]
    rfl
  rw [advance_of_not_looks hlooks hstep]
  exact .discarded rfl hverdict (hread.closes hw hclosed) { hmet with }

theorem course_advance_discarded {t : Trial} (hphase : a.phase = .discarded true)
    (hverdict : t.verdict = some false) (hleft : Left p₀ l₀ (t :: ts) (t :: ts) none p l)
    (hmet : Met p₀ ts a p) : Course p₀ l₀ (advance ⟨a, p, l, t :: ts, []⟩) := by
  have hfailed : ∀ t' ∈ t :: ts, t'.verdict = some false :=
    List.forall_mem_cons.mpr ⟨hverdict, hmet.failed⟩
  have hcounted : p.tallies.bad + 1 = p₀.tallies.bad + (ts.length + 1) :=
    congrArg (· + 1) hmet.counted
  cases hlooks : a.looks p with
  | true =>
    have hlimit : ts.length + 1 ≤ p₀.config.badLimit := by
      simpa [Acquisition.looks, hphase, hmet.bad, hleft.config] using hlooks
    refine course_advance_looks hlooks rfl hleft fun b q hturn => ?_
    cases hturn with
    | bad hdiscarded => exact ⟨hfailed, congrArg (· + 1) hmet.bad, hcounted, hlimit⟩
    | enters hother | wakes hother | outdated hother => exact nomatch hphase.symm.trans hother
  | false =>
    have hlimit : p.config.badLimit < a.bad + 1 := by
      simpa [Acquisition.looks, hphase] using hlooks
    have hstep : a.step undisturbed p l =
        ({ a with bad := a.bad + 1 }.fail (Pool.tooManyBad (a.bad + 1) p.config.badLimit),
          p.notifyOne.countBad, (Clock.read l).2) := by
      unfold Acquisition.step
      rw [hphase]
      exact if_pos hlimit
    rw [advance_of_not_looks hlooks hstep]
    have hlength : (t :: ts).length = p₀.config.badLimit + 1 := by
      have hwithin := hmet.within
      rw [hleft.config, hmet.bad] at hlimit
      rw [List.length_cons]
      omega
    refine .failed ?_ { hleft with } hfailed hcounted (.tooMany hlength)
    rw [hleft.config, hmet.bad]
    rfl

/-- What the next section comes to, whatever it is. -/
theorem Course.advance (h : Course p₀ l₀ s) (hover : s.acquisition.result? = none) :
    Course p₀ l₀ s.advance := by
  cases h with
  | looking hphase hleft hmet => exact course_advance_looking hphase hleft hmet
  | checking hphase hleft hmet => exact course_advance_checking hphase hleft hmet
  | checked hphase hverdict hleft hmet => exact course_advance_checked hphase hverdict hleft hmet
  | discarding hphase hverdict hleft hmet =>
    exact course_advance_discarding hphase hverdict hleft hmet
  | discarded hphase hverdict hleft hmet =>
    exact course_advance_discarded hphase hverdict hleft hmet
  | failed hphase | handedOut hphase =>
    rw [Acquisition.result?, hphase] at hover
    cases hover

omit [Server ω] [Clock ω] in
/-- Nothing about the course shows who waits, how often they were interrupted and what the server
does by itself. -/
theorem Course.beside (h : Course p₀ l₀ s) (epoch : Nat) (parked : List Nat) {l : Ledger ω}
    (hopenings : l.openings = s.ledger.openings) (hentries : l.entries = s.ledger.entries) :
    Course p₀ l₀
      { s with pool := { s.pool with epoch := epoch, parked := parked }, ledger := l } := by
  have hleft {ts closed : List Trial} {checked : Option Trial} {p : Pool}
      (h : Left p₀ l₀ ts closed checked p s.ledger) : Left p₀ l₀ ts closed checked p l :=
    h.grows (hopenings ▸ List.prefix_refl _) (List.nil_append s.ledger.entries ▸ hentries)
  cases h with
  | looking hphase hl hmet => exact .looking hphase { hleft hl with } { hmet with }
  | checking hphase hl hmet => exact .checking hphase { hleft hl with } { hmet with }
  | checked hphase hverdict hl hmet =>
    exact .checked hphase hverdict { hleft hl with } { hmet with }
  | discarding hphase hverdict hl hmet =>
    exact .discarding hphase hverdict { hleft hl with } { hmet with }
  | discarded hphase hverdict hl hmet =>
    exact .discarded hphase hverdict { hleft hl with } { hmet with }
  | failed hphase hl hfailed hcounted hfailure =>
    exact .failed hphase { hleft hl with } hfailed hcounted hfailure
  | handedOut hphase hverdict hwrapper hphysical hl hmet hgives =>
    exact .handedOut hphase hverdict hwrapper hphysical (hleft hl) hmet { hgives with }

/-- Every section of the acquisition keeps to its course. -/
theorem Course.goOn (h : Course p₀ l₀ s) : Course p₀ l₀ s.goOn := by
  unfold Attempt.goOn
  cases hover : s.acquisition.result? with
  | some r => exact h
  | none =>
    cases hsleep : s.acquisition.sleep? s.pool s.ledger with
    | none => exact h
    | some l =>
      obtain ⟨hopenings, hentries⟩ : l.openings = s.ledger.openings ∧
          l.entries = s.ledger.entries := by
        unfold Acquisition.sleep? at hsleep
        split at hsleep
        · obtain ⟨t, -, rfl⟩ := Option.map_eq_some_iff.mp hsleep
          exact ⟨rfl, rfl⟩
        · obtain rfl := Option.some.inj hsleep
          exact ⟨rfl, rfl⟩
      exact (h.beside s.pool.epoch s.pool.parked hopenings hentries).advance hover

theorem Course.turn (h : Course p₀ l₀ s) (turn : Turn) : Course p₀ l₀ (s.turn turn) := by
  cases turn with
  | goesOn => exact h.goOn
  | interrupts => exact h.beside (s.pool.epoch + 1) s.pool.parked rfl rfl
  | wakesAll => exact h.beside s.pool.epoch [] rfl rfl

theorem Course.run (h : Course p₀ l₀ s) (turns : List Turn) : Course p₀ l₀ (s.run turns) := by
  unfold Attempt.run
  induction turns generalizing s with
  | nil => exact h
  | cons turn turns ih => exact ih (h.turn turn)

omit [Server ω] in
theorem course_begin (username password : Option String) (p : Pool) (l : Ledger ω) :
    Course p l (begin username password p l) := by
  refine .looking (.inl rfl) ?_ ⟨nofun, rfl, rfl, Nat.zero_le _⟩
  exact ⟨rfl, rfl, rfl, rfl, rfl, rfl, rfl, trivial, Nat.le_refl _, fun _ hlive =>
    .inr ⟨hlive, nofun, nofun⟩, [], rfl, nofun⟩

end Steps

end Attempt
end SqlMapper
