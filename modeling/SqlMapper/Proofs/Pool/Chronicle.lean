import Mathlib.Data.Finset.Card
import SqlMapper.Proofs.Pool.Credentials
import SqlMapper.Proofs.Pool.Moves

/-!
What a pool counts is what has happened to it since it last started to count. A chronicle is kept of
everything that happens, beside the pool; the counts are then read off from the chronicle alone.
-/

namespace SqlMapper

variable {ω : Type}

/-- Something that happens to a pool and that it may count. A connection is handed out, or taken
from its holder for somebody else; an acquisition, which has a number, finds nothing and waits. A
candidate has failed its tests while the pool was not torn down, and later it was closed and is
discarded. A handle comes back late, when its connection is not in use any more, or in time, and its
connection passes the check or not; and connections in use are torn down together with all others.
-/
inductive Incident where
  | handedOut
  | reclaimed
  | waited (number : Nat)
  | failed
  | discarded
  | late
  | returned (good : Bool)
  | tornDown
  deriving DecidableEq

def Incident.waiter? : Incident → Option Nat
  | .waited number => some number
  | _ => none

def waiters (os : List Incident) : List Nat := os.filterMap Incident.waiter?

@[simp] theorem waiters_append (os os' : List Incident) :
    waiters (os ++ os') = waiters os ++ waiters os' :=
  List.filterMap_append

theorem waiters_replicate (k : Nat) {o : Incident} (h : o.waiter? = none) :
    waiters (List.replicate k o) = [] :=
  List.filterMap_eq_nil_iff.mpr fun o' ho' => by rw [List.eq_of_mem_replicate ho', h]

def incidentsOf (handles slots : Nat) (numbers : List Nat)
    (verdict : Option Incident) : List Incident :=
  List.replicate handles .handedOut ++ List.replicate slots .reclaimed ++ numbers.map .waited ++
    verdict.toList

namespace Acquisition

def verdict? (a : Acquisition) (p : Pool) : Option Incident :=
  match a.phase with
  | .checked _ generation false => if p.generation = generation then some .failed else none
  | .discarded true => some .discarded
  | _ => none

def isClosingBad (a : Acquisition) : Bool :=
  match a.phase with
  | .discarding _ bad | .discarded bad => bad
  | _ => false

end Acquisition

def Pool.comeback [Server ω] (now : Instant) (wrapper : Nat) (p : Pool) (w : ω) : Incident :=
  match p.active.find? (·.wrapper == wrapper) with
  | none => .late
  | some slot => .returned (p.passesReturn now slot w)

namespace Scene

variable [Server ω] [Clock ω]

/-- What happens when a holder gives its handle back. Only the first time counts, and only while the
pool is there. -/
def comeback? (s : Scene ω) (h : Handle) : Option Incident :=
  if h.returned || s.pool.dropped || s.calls.any (·.wrapper == h.wrapper) then none
  else
    let (now, l) := Clock.read s.ledger
    some (s.pool.comeback now h.wrapper l)

def incidents (numbers : List Nat) (s : Scene ω) : Event ω → List Incident
  | .proceed i =>
    let s' := s.proceed i
    incidentsOf (s'.handles.length - s.handles.length) (s.reclaimed (.proceed i)).length
      (if s.pool.tickets < s'.pool.tickets then numbers[i]?.toList else [])
      (s.acquisitions[i]?.bind (·.verdict? s.pool))
  | .giveBack j => (s.handles[j]?.bind s.comeback?).toList
  | e => if s.tearsDown e then s.pool.active.map fun _ => .tornDown else []

def startsAnew (s : Scene ω) : Event ω → Bool
  | .reconfigure config settings => s.tearsDown (.reconfigure config settings)
  | _ => false

end Scene

structure Chronicle (ω : Type) where
  scene : Scene ω
  numbers : List Nat
  begun : Nat
  /-- What happened before the pool last started to count. -/
  earlier : List Incident
  since : List Incident

namespace Chronicle

def start (settings : ConnectionSettings) (config : PoolConfig) (server : ω) : Chronicle ω :=
  ⟨.start settings config server, [], 0, [], []⟩

variable [Server ω] [Clock ω]

def renumbered (c : Chronicle ω) (e : Scene.Event ω) : List Nat :=
  let before := c.scene.acquisitions.length
  let after := (c.scene.step e).acquisitions.length
  match e with
  | .acquire _ _ => if before < after then c.numbers ++ [c.begun] else c.numbers
  | .proceed i => if after < before then c.numbers.eraseIdx i else c.numbers
  | _ => c.numbers

def step (c : Chronicle ω) (e : Scene.Event ω) : Chronicle ω :=
  let happened := c.scene.incidents c.numbers e
  { scene := c.scene.step e
    numbers := c.renumbered e
    begun := c.begun + ((c.scene.step e).acquisitions.length - c.scene.acquisitions.length)
    earlier := if c.scene.startsAnew e then c.earlier ++ c.since ++ happened else c.earlier
    since := if c.scene.startsAnew e then [] else c.since ++ happened }

def run (c : Chronicle ω) (events : List (Scene.Event ω)) : Chronicle ω := events.foldl step c

theorem scene_run (c : Chronicle ω) (events : List (Scene.Event ω)) :
    (c.run events).scene = c.scene.run events := by
  unfold run Scene.run
  induction events generalizing c with
  | nil => rfl
  | cons e events ih => exact ih (c.step e)

end Chronicle

/-! ### What a section counts -/

namespace Pool

def lost (p p' : Pool) : List Slot := p.active.filter (· ∉ p'.active)

theorem lost_eq_nil {p p' : Pool} (h : p.active ⊆ p'.active) : p.lost p' = [] := by
  refine List.filter_eq_nil_iff.mpr fun slot hslot => ?_
  simpa using h hslot

theorem lost_of_cons {p p' : Pool} {slot : Slot} (h : p.active = slot :: p'.active)
    (hnodup : p.active.Nodup) : p.lost p' = [slot] := by
  rw [h, List.nodup_cons] at hnodup
  rw [lost, h, List.filter_cons_of_pos (by simpa using hnodup.1)]
  have hrest : p'.active.filter (· ∉ p'.active) = [] :=
    lost_eq_nil (p := p') (List.Subset.refl _)
  rw [hrest]

end Pool

namespace Acquisition

def gained (a : Acquisition) : Nat :=
  match a.result? with
  | some (.ok _) => 1
  | _ => 0

structure Accounts (verdict : Option Incident) (a a' : Acquisition) (p p' : Pool) : Prop where
  requests : p'.tallies.requests = p.tallies.requests + a'.gained
  overdue : p'.tallies.overdue = p.tallies.overdue + (p.lost p').length
  waits : p'.tallies.waits =
    p.tallies.waits + if p.tickets < p'.tickets ∧ a.deadline = none then 1 else 0
  bad : p'.tallies.bad = p.tallies.bad + verdict.toList.count .discarded
  active : p'.active.length + (p.lost p').length = p.active.length + a'.gained
  deadline : a'.deadline.isSome = true ↔ a.deadline.isSome = true ∨ p.tickets < p'.tickets

variable {now : Instant} {verdict : Option Incident} {a a' b : Acquisition} {p p' q : Pool}
  {w w' : ω}

theorem Accounts.of_quiet (hactive : p'.active = p.active) (htickets : p'.tickets = p.tickets)
    (hdeadline : a'.deadline = a.deadline) (hgained : a'.gained = 0)
    (hrequests : p'.tallies.requests = p.tallies.requests)
    (hoverdue : p'.tallies.overdue = p.tallies.overdue)
    (hwaits : p'.tallies.waits = p.tallies.waits)
    (hbad : p'.tallies.bad = p.tallies.bad + verdict.toList.count .discarded) :
    Accounts verdict a a' p p' := by
  -- Nobody stops using a connection, and nobody begins to wait.
  have hlost : p.lost p' = [] := Pool.lost_eq_nil (hactive ▸ List.Subset.refl _)
  have hsame : ¬ p.tickets < p'.tickets := by omega
  refine ⟨?_, ?_, ?_, hbad, ?_, ?_⟩
  · rw [hrequests, hgained, Nat.add_zero]
  · rw [hoverdue, hlost, List.length_nil, Nat.add_zero]
  · rw [hwaits, if_neg (fun h => hsame h.1), Nat.add_zero]
  · rw [hactive, hlost, hgained, List.length_nil]
  · rw [hdeadline, or_iff_left hsame]

theorem Looks.accounts [Server ω] (h : b.Looks now q w a' p' w') (hnodup : q.active.Nodup) :
    Accounts none b a' q p' := by
  cases h with
  | picks | opens | refused | givesUp => exact .of_quiet rfl rfl rfl rfl rfl rfl rfl rfl
  | @reclaims oldest rest hidle hroom hactive hoverdue =>
    have hlost : q.lost { (q.reclaim now oldest rest).2 with pending := q.pending + 1 } =
        [oldest] :=
      Pool.lost_of_cons hactive hnodup
    refine ⟨rfl, ?_, ?_, rfl, ?_, ?_⟩
    · rw [hlost]
      rfl
    · simp [Pool.reclaim, Pool.rewrap, Pool.newWrapper, Pool.invalidate]
    · rw [hlost, hactive]
      rfl
    · simp [goTo, Pool.reclaim, Pool.rewrap, Pool.newWrapper, Pool.invalidate]
  | waits hidle hroom hlast hoverdue =>
    have hlost : q.lost (q.park now b).2 = [] := Pool.lost_eq_nil (List.Subset.refl _)
    refine ⟨rfl, ?_, ?_, rfl, ?_, ?_⟩
    · rw [hlost]
      rfl
    · simp [Pool.park]
    · rw [hlost]
      rfl
    · simp [Pool.park]

theorem Turns.accounts (h : a.Turns now p b q) (hlooked : Accounts none b a' q p') :
    Accounts (a.verdict? p) a a' p p' := by
  obtain ⟨-, -, hactive, -, -⟩ := h.keeps
  obtain ⟨hrequests, hoverdue, hwaits, hbad, hbalance, hdeadline⟩ := hlooked
  have hlost : q.lost p' = p.lost p' := by rw [Pool.lost, hactive, Pool.lost]
  rw [hlost] at hoverdue hbalance
  rw [hactive] at hbalance
  cases h with
  | enters hphase | wakes hphase hepoch | outdated hphase =>
    refine ⟨hrequests, hoverdue, hwaits, ?_, hbalance, hdeadline⟩
    simpa [verdict?, hphase, Pool.notifyOne] using hbad
  -- The candidate that it has closed is counted now.
  | bad hphase =>
    refine ⟨hrequests, hoverdue, hwaits, ?_, hbalance, hdeadline⟩
    rw [hbad]
    simp [verdict?, hphase, Pool.countBad, Pool.notifyOne]

/-- What a section adds to the counts is what happened in it. -/
theorem Section.accounts [Server ω] (h : a.Section now p w a' p' w') (hnodup : p.active.Nodup) :
    Accounts (a.verdict? p) a a' p p' := by
  cases h with
  | looks hturn hlooks =>
    obtain ⟨-, -, hactive, -, -⟩ := hturn.keeps
    exact hturn.accounts (hlooks.accounts (hactive ▸ hnodup))
  | @handsOut slot hphase =>
    have hlost : p.lost ({ p with pending := p.pending - 1 }.register now slot a).2 = [] :=
      Pool.lost_eq_nil (List.subset_append_left _ _)
    refine ⟨rfl, ?_, ?_, ?_, ?_, ?_⟩
    · rw [hlost]
      rfl
    · simp [Pool.register]
    · simp [verdict?, hphase, Pool.register]
    · rw [hlost]
      simp [Pool.register, gained, goTo, result?]
    · simp [Pool.register, goTo]
  | @rejects slot generation good bad hphase hbad hgood =>
    refine .of_quiet rfl rfl rfl rfl rfl rfl rfl ?_
    rw [verdict?, hphase]
    cases good with
    | true => rfl
    | false =>
      dsimp only
      split <;> rfl
  | interrupted hphase | passes hphase | failsTest hphase | finishes hphase | closes hphase
  | despairs hphase =>
    refine .of_quiet rfl rfl rfl rfl rfl rfl rfl ?_
    simp [verdict?, hphase, Pool.notifyOne, Pool.countBad]

/-- A candidate that has failed its tests is closed, and then it was discarded. -/
theorem Section.failures [Server ω] (h : a.Section now p w a' p' w') :
    a'.isClosingBad.toNat + (a.verdict? p).toList.count .discarded =
      a.isClosingBad.toNat + (a.verdict? p).toList.count .failed := by
  cases h with
  | looks hturn hlooks =>
    have hdone : a'.isClosingBad = false := by cases hlooks <;> rfl
    rw [hdone]
    cases hturn with
    | enters hphase | wakes hphase hepoch | outdated hphase | bad hphase =>
      simp [verdict?, isClosingBad, hphase]
  | @rejects slot generation good bad hphase hbad hgood =>
    cases bad with
    | true => simp [verdict?, isClosingBad, goTo, hphase, hgood rfl, hbad.mp rfl]
    | false =>
      have hother : p.generation ≠ generation := by simpa using hbad
      cases good <;> simp [verdict?, isClosingBad, goTo, hphase, hother]
  | interrupted hphase | passes hphase | failsTest hphase | finishes hphase | handsOut hphase
  | closes hphase | despairs hphase =>
    simp [verdict?, isClosingBad, goTo, fail, hphase, Pool.register]

end Acquisition

namespace Pool

variable {p p' : Pool} {now : Instant} {wrapper : Nat} {w w' : ω}

structure Counts (os : List Incident) (p p' : Pool) : Prop where
  requests : p'.tallies.requests = p.tallies.requests + os.count .handedOut
  overdue : p'.tallies.overdue = p.tallies.overdue + os.count .reclaimed
  waits : p'.tallies.waits = p.tallies.waits
  bad : p'.tallies.bad = p.tallies.bad +
    (os.count .discarded + os.count .late + os.count (.returned false))
  active : p.active.length + os.count .handedOut = p'.active.length +
    (os.count (.returned true) + os.count (.returned false) + os.count .reclaimed +
      os.count .tornDown)
  failures : os.count .failed = os.count .discarded
  waiters : waiters os = []

theorem Return.counts [Server ω] (h : p.Return now wrapper w p' w') :
    Counts [p.comeback now wrapper w] p p' := by
  unfold comeback
  cases h with
  | late hnone =>
    rw [hnone]
    exact ⟨rfl, rfl, rfl, rfl, rfl, rfl, rfl⟩
  | fails hfind hactive hcheck =>
    rw [hfind]
    dsimp only
    rw [hcheck]
    exact ⟨rfl, rfl, rfl, rfl, length_of_removed hactive, rfl, rfl⟩
  | keeps hfind hactive hcheck | closes hfind hactive hcheck =>
    rw [hfind]
    dsimp only
    rw [hcheck]
    exact ⟨rfl, rfl, rfl, rfl, length_of_removed hactive, rfl, rfl⟩

theorem counts_of_nil (htallies : p'.tallies = p.tallies) (hactive : p'.active = []) :
    Counts (p.active.map fun _ => .tornDown) p p' := by
  rw [List.map_const']
  refine ⟨?_, ?_, ?_, ?_, ?_, ?_, ?_⟩
  · simp [htallies, List.count_replicate]
  · simp [htallies, List.count_replicate]
  · rw [htallies]
  · simp [htallies, List.count_replicate]
  · simp [hactive, List.count_replicate]
  · simp [List.count_replicate]
  · exact waiters_replicate _ rfl

theorem counts_of_same (htallies : p'.tallies = p.tallies) (hactive : p'.active = p.active) :
    Counts [] p p' := by
  refine ⟨?_, ?_, ?_, ?_, ?_, rfl, rfl⟩
  · rw [htallies]
    rfl
  · rw [htallies]
    rfl
  · rw [htallies]
  · rw [htallies]
    rfl
  · rw [hactive]
    rfl

end Pool

/-! ### The numbers of the acquisitions -/

/-- No two acquisitions have the same number, and those with a deadline are those that have found
nothing before. -/
structure Numbering (as : List Acquisition) (numbers : List Nat) (begun : Nat)
    (waited : List Nat) : Prop where
  length : numbers.length = as.length
  nodup : numbers.Nodup
  lt : ∀ n ∈ numbers, n < begun
  lt_of_waited : ∀ n ∈ waited, n < begun
  deadline : ∀ (i : Nat) (a : Acquisition) (n : Nat), as[i]? = some a → numbers[i]? = some n →
    (a.deadline.isSome = true ↔ n ∈ waited)

namespace Numbering

variable {as : List Acquisition} {a a' : Acquisition} {numbers waited waited' : List Nat}
  {begun i n : Nat}

theorem begin (h : Numbering as numbers begun waited) (hnew : a.deadline = none) :
    Numbering (as ++ [a]) (numbers ++ [begun]) (begun + 1) waited where
  length := by rw [List.length_append, List.length_append, h.length]; rfl
  nodup := by
    refine List.nodup_append'.mpr ⟨h.nodup, List.nodup_singleton _, ?_⟩
    rw [List.disjoint_singleton]
    exact fun hmem => absurd (h.lt _ hmem) (Nat.lt_irrefl _)
  lt := by
    intro n hn
    rcases List.mem_append.mp hn with hn | hn
    · exact Nat.lt_succ_of_lt (h.lt n hn)
    · rw [List.mem_singleton.mp hn]
      exact Nat.lt_succ_self begun
  lt_of_waited := fun n hn => Nat.lt_succ_of_lt (h.lt_of_waited n hn)
  deadline := by
    intro i b n hb hn
    by_cases hi : i < as.length
    · rw [List.getElem?_append_left hi] at hb
      rw [List.getElem?_append_left (h.length ▸ hi)] at hn
      exact h.deadline i b n hb hn
    -- Nobody has waited under the new number.
    · have hle : as.length ≤ i := Nat.le_of_not_lt hi
      rw [List.getElem?_append_right hle] at hb
      rw [List.getElem?_append_right (h.length ▸ hle), h.length] at hn
      obtain rfl : a = b := List.mem_singleton.mp (List.mem_of_getElem? hb) |>.symm
      obtain rfl : begun = n := List.mem_singleton.mp (List.mem_of_getElem? hn) |>.symm
      simp only [hnew, Option.isSome_none, Bool.false_eq_true, false_iff]
      exact fun hmem => absurd (h.lt_of_waited _ hmem) (Nat.lt_irrefl _)

theorem set (h : Numbering as numbers begun waited) (hi : i < as.length)
    (hnumber : numbers[i]? = some n) (hwaited : ∀ m, m ≠ n → (m ∈ waited' ↔ m ∈ waited))
    (hdeadline : a'.deadline.isSome = true ↔ n ∈ waited') :
    Numbering (as.set i a') numbers begun waited' where
  length := by rw [List.length_set, h.length]
  nodup := h.nodup
  lt := h.lt
  lt_of_waited := by
    intro m hm
    by_cases hsame : m = n
    · exact hsame ▸ h.lt n (List.mem_of_getElem? hnumber)
    · exact h.lt_of_waited m ((hwaited m hsame).mp hm)
  deadline := by
    intro j b m hb hm
    by_cases hsame : j = i
    · subst hsame
      rw [List.getElem?_set_self hi] at hb
      obtain rfl := Option.some.inj hb
      obtain rfl : n = m := Option.some.inj (hnumber.symm.trans hm)
      exact hdeadline
    -- Another acquisition has another number.
    · rw [List.getElem?_set_ne (Ne.symm hsame)] at hb
      have hother : m ≠ n := by
        rintro rfl
        have hj := (List.getElem?_eq_some_iff.mp hm).1
        exact hsame ((List.getElem?_inj hj h.nodup).mp (hm.trans hnumber.symm))
      rw [hwaited m hother]
      exact h.deadline j b m hb hm

theorem eraseIdx (h : Numbering as numbers begun waited) (i : Nat) :
    Numbering (as.eraseIdx i) (numbers.eraseIdx i) begun waited where
  length := by rw [List.length_eraseIdx, List.length_eraseIdx, h.length]
  nodup := (List.eraseIdx_sublist numbers i).nodup h.nodup
  lt := fun n hn => h.lt n (List.mem_of_mem_eraseIdx hn)
  lt_of_waited := h.lt_of_waited
  deadline := by
    intro j b n hb hn
    rw [List.getElem?_eraseIdx] at hb hn
    split at hb
    · rename_i hj
      rw [if_pos hj] at hn
      exact h.deadline j b n hb hn
    · rename_i hj
      rw [if_neg hj] at hn
      exact h.deadline (j + 1) b n hb hn

end Numbering

/-! ### The chronicle -/

namespace Scene

variable {s : Scene ω} {i : Nat} {a a' : Acquisition}

theorem handles_put (a' : Acquisition) :
    (s.put i a').handles.length - s.handles.length = a'.gained := by
  unfold put Acquisition.gained
  cases a'.result? with
  | none => simp
  | some r => cases r <;> simp

theorem acquisitions_put (a' : Acquisition) :
    (s.put i a').acquisitions = s.acquisitions.set i a' ∨
      (s.put i a').acquisitions = s.acquisitions.eraseIdx i ∧ a'.result?.isSome = true := by
  unfold put
  cases hresult : a'.result? with
  | none => exact .inl rfl
  | some r => cases r <;> exact .inr ⟨rfl, rfl⟩

/-- An acquisition that is over takes its number with it, and the others keep theirs. -/
theorem numbering_put {numbers waited : List Nat} {begun : Nat} (hi : i < s.acquisitions.length)
    (h : Numbering (s.acquisitions.set i a') numbers begun waited) :
    let after := (s.put i a').acquisitions.length
    Numbering (s.put i a').acquisitions
      (if after < s.acquisitions.length then numbers.eraseIdx i else numbers)
      (begun + (after - s.acquisitions.length)) waited := by
  rcases acquisitions_put (s := s) (i := i) a' with hplace | ⟨hplace, -⟩
  · rw [hplace]
    simpa using h
  -- Whoever leaves takes its number along.
  · have herase := h.eraseIdx i
    rw [List.eraseIdx_set_eq] at herase
    have hlength := List.length_eraseIdx_of_lt hi
    have hless : (s.acquisitions.eraseIdx i).length < s.acquisitions.length := by omega
    rw [hplace]
    dsimp only
    rw [if_pos hless, Nat.sub_eq_zero_of_le hless.le]
    exact herase

theorem countP_isClosingBad_put (hget : s.acquisitions[i]? = some a) (a' : Acquisition) :
    s.acquisitions.countP (·.isClosingBad) + a'.isClosingBad.toNat =
      (s.put i a').acquisitions.countP (·.isClosingBad) + a.isClosingBad.toNat := by
  obtain ⟨hi, rfl⟩ := List.getElem?_eq_some_iff.mp hget
  have hcons (b : Acquisition) : (b :: s.acquisitions.eraseIdx i).countP (·.isClosingBad) =
      (s.acquisitions.eraseIdx i).countP (·.isClosingBad) + b.isClosingBad.toNat := by
    rw [List.countP_cons]
    cases b.isClosingBad <;> rfl
  rw [← (List.getElem_cons_eraseIdx_perm hi).countP_eq, hcons]
  rcases acquisitions_put (s := s) (i := i) a' with hset | ⟨herase, hover⟩
  · rw [hset, (List.set_perm_cons_eraseIdx hi a').countP_eq, hcons]
    omega
  -- Whoever leaves closes nothing any more.
  · obtain ⟨r, hr⟩ := Option.isSome_iff_exists.mp hover
    have hdone : a'.isClosingBad = false := by
      rw [Acquisition.isClosingBad, Acquisition.phase_of_result? hr]
    rw [herase, hdone]
    rfl

variable [Server ω] [Clock ω] {numbers : List Nat} {e : Event ω}

theorem incidents_proceed {s' : Scene ω} (h : s.step (.proceed i) = s') :
    s.incidents numbers (.proceed i) =
      incidentsOf (s'.handles.length - s.handles.length) (s.pool.lost s'.pool).length
        (if s.pool.tickets < s'.pool.tickets then numbers[i]?.toList else [])
        (s.acquisitions[i]?.bind (·.verdict? s.pool)) := by
  subst h
  rfl

theorem incidents_of_tearsDown (htears : s.tearsDown e = true) :
    s.incidents numbers e = s.pool.active.map fun _ => .tornDown := by
  cases e with
  | forceCloseAll | reconfigure | drop => exact if_pos htears
  | _ => exact absurd htears (by simp [tearsDown])

theorem incidents_of_nothing (hproceed : ∀ i, e ≠ .proceed i)
    (hgiveBack : ∀ j, e ≠ .giveBack j) (htears : s.tearsDown e = false) :
    s.incidents numbers e = [] := by
  cases e with
  | proceed i => exact absurd rfl (hproceed i)
  | giveBack j => exact absurd rfl (hgiveBack j)
  | _ => simp only [incidents, htears, Bool.false_eq_true, if_false]

/-- A handle that has come back once does nothing when it comes back again. -/
theorem giveBack_of_returned {j : Nat} {h : Handle} (hget : s.handles[j]? = some h)
    (hreturned : h.returned = true) : s.step (.giveBack j) = s ∨
      s.step (.giveBack j) = { s with ledger := (Clock.read s.ledger).2 } := by
  have hmoves := s.moves_step (.giveBack j)
  generalize s.step (.giveBack j) = s' at hmoves ⊢
  cases hmoves with
  | @returns j g p' l' hget' hfree hfirst =>
    obtain rfl : h = g := Option.some.inj (hget.symm.trans hget')
    exact absurd (hreturned.symm.trans hfirst) (by simp)
  | @outlives j g hget' hgone =>
    obtain rfl : h = g := Option.some.inj (hget.symm.trans hget')
    have hsame : { h with returned := true } = h := by rw [← hreturned]
    obtain ⟨hj, rfl⟩ := List.getElem?_eq_some_iff.mp hget
    rw [hsame, List.set_getElem_self hj]
    exact .inr rfl
  | returnsAgain => exact .inr rfl
  | keepsHandle => exact .inl rfl
  | closesAll dropped htears => exact absurd htears (by simp [tearsDown])
  | nothing => exact .inl rfl

end Scene

theorem Acquisition.verdict?_of_waits {a : Acquisition} {p q : Pool}
    (h : a.result?.isSome = true ∨ a.connection?.isSome = true ∨ a.isAsleep q = true) :
    a.verdict? p = none := by
  unfold verdict?
  unfold result? connection? isAsleep at h
  cases hphase : a.phase with
  | checked | discarded => simp [hphase] at h
  | _ => rfl

theorem Acquisition.verdict?_cases (a : Acquisition) (p : Pool) :
    a.verdict? p = none ∨ a.verdict? p = some .failed ∨ a.verdict? p = some .discarded := by
  unfold verdict?
  split
  · split <;> simp
  · simp
  · simp

theorem card_waits {earlier since : List Nat} {n : Nat} :
    ((since ++ [n]).toFinset \ earlier.toFinset).card =
      (since.toFinset \ earlier.toFinset).card + if n ∈ earlier ++ since then 0 else 1 := by
  have hinsert : (since ++ [n]).toFinset = insert n since.toFinset := by
    rw [List.toFinset_append, Finset.union_comm]
    rfl
  rw [hinsert]
  by_cases hmem : n ∈ earlier ++ since
  -- It is not the first wait, and the earlier one is counted, or was.
  · rw [if_pos hmem, Nat.add_zero]
    rcases List.mem_append.mp hmem with hearlier | hsince
    · rw [Finset.insert_sdiff_of_mem _ (List.mem_toFinset.mpr hearlier)]
    · rw [Finset.insert_eq_of_mem (List.mem_toFinset.mpr hsince)]
  · obtain ⟨hearlier, hsince⟩ := not_or.mp (mt List.mem_append.mpr hmem)
    rw [if_neg hmem, Finset.insert_sdiff_of_notMem _ (mt List.mem_toFinset.mp hearlier)]
    refine Finset.card_insert_of_notMem fun h => hsince ?_
    exact List.mem_toFinset.mp (Finset.mem_sdiff.mp h).1

section

variable (handles slots : Nat) (numbers : List Nat) {verdict : Option Incident}
  (hverdict : verdict = none ∨ verdict = some .failed ∨ verdict = some .discarded)

include hverdict

theorem waiters_incidentsOf :
    waiters (incidentsOf handles slots numbers verdict) = numbers := by
  have hnumbers : waiters (numbers.map Incident.waited) = numbers := by
    rw [waiters, List.filterMap_map]
    exact List.filterMap_some
  have hnone : waiters verdict.toList = [] := by
    rcases hverdict with rfl | rfl | rfl <;> rfl
  rw [incidentsOf, waiters_append, waiters_append, waiters_append,
    waiters_replicate _ rfl, waiters_replicate _ rfl, hnumbers, hnone, List.append_nil]
  rfl

theorem counts_incidentsOf :
    let os := incidentsOf handles slots numbers verdict
    os.count .handedOut = handles ∧ os.count .reclaimed = slots ∧
      os.count .failed = verdict.toList.count .failed ∧
      os.count .discarded = verdict.toList.count .discarded ∧ os.count .late = 0 ∧
      (∀ good, os.count (.returned good) = 0) ∧ os.count .tornDown = 0 := by
  have hwaited (o : Incident) (ho : ∀ n, o ≠ .waited n) :
      (numbers.map Incident.waited).count o = 0 := by
    refine List.count_eq_zero.mpr fun hmem => ?_
    obtain ⟨n, -, hn⟩ := List.mem_map.mp hmem
    exact ho n hn.symm
  rcases hverdict with rfl | rfl | rfl <;>
    simp [incidentsOf, List.count_append, List.count_replicate, hwaited]

end

namespace Chronicle

structure Tallied (c : Chronicle ω) : Prop where
  numbering : Numbering c.scene.acquisitions c.numbers c.begun (waiters (c.earlier ++ c.since))
  requests : c.scene.pool.tallies.requests = c.since.count .handedOut
  overdue : c.scene.pool.tallies.overdue = c.since.count .reclaimed
  waits : c.scene.pool.tallies.waits =
    ((waiters c.since).toFinset \ (waiters c.earlier).toFinset).card
  bad : c.scene.pool.tallies.bad = c.since.count .discarded + c.since.count .late +
    c.since.count (.returned false)
  active : c.since.count .handedOut = c.scene.pool.active.length +
    (c.since.count (.returned true) + c.since.count (.returned false)) +
    c.since.count .reclaimed + c.since.count .tornDown
  failures : (c.earlier ++ c.since).count .failed = (c.earlier ++ c.since).count .discarded +
    c.scene.acquisitions.countP (·.isClosingBad)

theorem tallied_start (settings : ConnectionSettings) (config : PoolConfig) (server : ω) :
    (start settings config server).Tallied where
  numbering :=
    { length := rfl
      nodup := List.nodup_nil
      lt := fun _ hn => absurd hn List.not_mem_nil
      lt_of_waited := fun _ hn => absurd hn List.not_mem_nil
      deadline := fun _ _ _ ha => absurd ha (by simp [start, Scene.start]) }
  requests := rfl
  overdue := rfl
  waits := rfl
  bad := rfl
  active := rfl
  failures := rfl

variable [Server ω] [Clock ω] {c : Chronicle ω} {e : Scene.Event ω}

/-- The counts go up by what happens. -/
theorem Tallied.goOn (h : c.Tallied) (hanew : c.scene.startsAnew e = false)
    {happened : List Incident} (hhappened : c.scene.incidents c.numbers e = happened)
    {s' : Scene ω} (hstep : c.scene.step e = s')
    (hnumbering : Numbering s'.acquisitions (c.renumbered e)
      (c.begun + (s'.acquisitions.length - c.scene.acquisitions.length))
      (waiters (c.earlier ++ c.since) ++ waiters happened))
    (hrequests : s'.pool.tallies.requests =
      c.scene.pool.tallies.requests + happened.count .handedOut)
    (hoverdue : s'.pool.tallies.overdue =
      c.scene.pool.tallies.overdue + happened.count .reclaimed)
    (hwaits : s'.pool.tallies.waits =
      ((waiters c.since ++ waiters happened).toFinset \ (waiters c.earlier).toFinset).card)
    (hbad : s'.pool.tallies.bad = c.scene.pool.tallies.bad + (happened.count .discarded +
      happened.count .late + happened.count (.returned false)))
    (hactive : c.scene.pool.active.length + happened.count .handedOut =
      s'.pool.active.length + (happened.count (.returned true) +
        happened.count (.returned false) + happened.count .reclaimed +
        happened.count .tornDown))
    (hfailures : c.scene.acquisitions.countP (·.isClosingBad) + happened.count .failed =
      s'.acquisitions.countP (·.isClosingBad) + happened.count .discarded) :
    (c.step e).Tallied := by
  have hnow : c.step e = ⟨s', c.renumbered e,
      c.begun + (s'.acquisitions.length - c.scene.acquisitions.length), c.earlier,
      c.since ++ happened⟩ := by
    unfold step
    rw [hanew, hhappened, hstep]
    rfl
  have hbefore := h.active
  have hfailed := h.failures
  rw [hnow]
  refine ⟨?_, ?_, ?_, ?_, ?_, ?_, ?_⟩ <;> dsimp only
  · rw [← List.append_assoc, waiters_append]
    exact hnumbering
  · rw [hrequests, h.requests, List.count_append]
  · rw [hoverdue, h.overdue, List.count_append]
  · rw [hwaits, waiters_append]
  · rw [hbad, h.bad, List.count_append, List.count_append, List.count_append]
    omega
  · simp only [List.count_append] at hbefore hactive ⊢
    omega
  · simp only [List.count_append] at hfailed hfailures ⊢
    omega

theorem renumbered_of_same (h : (c.scene.step e).acquisitions = c.scene.acquisitions) :
    c.renumbered e = c.numbers := by
  unfold renumbered
  rw [h]
  cases e <;> simp

/-- No acquisition begins, goes on or ends. -/
theorem Tallied.counts (h : c.Tallied) (hanew : c.scene.startsAnew e = false)
    {happened : List Incident} (hhappened : c.scene.incidents c.numbers e = happened)
    {s' : Scene ω} (hstep : c.scene.step e = s')
    (hacquisitions : s'.acquisitions = c.scene.acquisitions)
    (hcounts : c.scene.pool.Counts happened s'.pool) : (c.step e).Tallied := by
  obtain ⟨hrequests, hoverdue, hwaits, hbad, hactive, hfailures, hwaiters⟩ := hcounts
  have hnumbers : c.renumbered e = c.numbers := renumbered_of_same (hstep ▸ hacquisitions)
  refine h.goOn hanew hhappened hstep ?_ hrequests hoverdue ?_ hbad hactive ?_
  · rw [hnumbers, hacquisitions, Nat.sub_self, hwaiters, List.append_nil]
    exact h.numbering
  · rw [hwaiters, List.append_nil, ← h.waits]
    exact hwaits
  · rw [hacquisitions, hfailures]

/-- An acquisition that begins gets a number and counts for nothing. -/
theorem Tallied.begin (h : c.Tallied) {username password : Option String} {a : Acquisition}
    {l : Ledger ω} (hstep : c.scene.step (.acquire username password) =
      { c.scene with ledger := l, acquisitions := c.scene.acquisitions ++ [a] })
    (hdeadline : a.deadline = none) (hphase : a.phase = .starting) :
    (c.step (.acquire username password)).Tallied := by
  have hnumbers : c.renumbered (.acquire username password) = c.numbers ++ [c.begun] := by
    unfold renumbered
    rw [hstep]
    simp
  refine h.goOn rfl rfl hstep ?_ rfl rfl ?_ rfl rfl ?_
  · rw [hnumbers]
    dsimp only
    rw [List.length_append, Nat.add_sub_cancel_left]
    simpa [Scene.incidents, Scene.tearsDown, waiters] using h.numbering.begin hdeadline
  · rw [h.waits]
    simp [Scene.incidents, Scene.tearsDown, waiters]
  · simp [Scene.incidents, Scene.tearsDown, Acquisition.isClosingBad, hphase]

theorem Tallied.anew (h : c.Tallied) (hanew : c.scene.startsAnew e = true)
    {happened : List Incident} (hhappened : c.scene.incidents c.numbers e = happened)
    {s' : Scene ω} (hstep : c.scene.step e = s')
    (hfailures : happened.count .failed = happened.count .discarded)
    (hwaiters : waiters happened = []) (htallies : s'.pool.tallies = .zero)
    (hactive : s'.pool.active = [])
    (hacquisitions : s'.acquisitions = c.scene.acquisitions) : (c.step e).Tallied := by
  have hnumbers : c.renumbered e = c.numbers := renumbered_of_same (hstep ▸ hacquisitions)
  have hnow : c.step e =
      ⟨s', c.numbers, c.begun, c.earlier ++ c.since ++ happened, []⟩ := by
    unfold step
    rw [hanew, hnumbers, hstep, hacquisitions, hhappened]
    simp
  have hfailed := h.failures
  rw [hnow]
  -- Nothing is in use, and nothing has happened since.
  refine ⟨?_, ?_, ?_, ?_, ?_, ?_, ?_⟩ <;> dsimp only
  · rw [hacquisitions, List.append_nil, waiters_append, hwaiters, List.append_nil]
    exact h.numbering
  · rw [htallies]
    rfl
  · rw [htallies]
    rfl
  · rw [htallies]
    simp [waiters, Tallies.zero]
  · rw [htallies]
    rfl
  · rw [hactive]
    rfl
  · rw [hacquisitions]
    simp only [List.append_nil, List.count_append] at hfailed ⊢
    omega

/-- A section of an acquisition keeps the counts those of the chronicle. -/
theorem Tallied.proceed (h : c.Tallied) {i : Nat} {a a' : Acquisition} {p' : Pool}
    {l' : Ledger ω} {verdict : Option Incident}
    (hget : c.scene.acquisitions[i]? = some a)
    (hstep : c.scene.step (.proceed i) = { c.scene with pool := p', ledger := l' }.put i a')
    (hverdict : a.verdict? c.scene.pool = verdict)
    (haccounts : Acquisition.Accounts verdict a a' c.scene.pool p')
    (hfailures : a'.isClosingBad.toNat + verdict.toList.count .discarded =
      a.isClosingBad.toNat + verdict.toList.count .failed) :
    (c.step (.proceed i)).Tallied := by
  obtain ⟨hi, -⟩ := List.getElem?_eq_some_iff.mp hget
  obtain ⟨n, hnumber⟩ : ∃ n, c.numbers[i]? = some n :=
    ⟨_, List.getElem?_eq_getElem (h.numbering.length ▸ hi)⟩
  have hknown := h.numbering.deadline i a n hget hnumber
  let waited := if c.scene.pool.tickets < p'.tickets then [n] else []
  have hgained : ({ c.scene with pool := p', ledger := l' }.put i a').handles.length -
      c.scene.handles.length = a'.gained :=
    Scene.handles_put a'
  have hhappened : c.scene.incidents c.numbers (.proceed i) =
      incidentsOf a'.gained (c.scene.pool.lost p').length waited verdict := by
    rw [Scene.incidents_proceed hstep, hgained, Scene.pool_put, hget, hnumber,
      Option.bind_some, hverdict]
    rfl
  have hcases : verdict = none ∨ verdict = some .failed ∨ verdict = some .discarded :=
    hverdict ▸ a.verdict?_cases c.scene.pool
  have hwaiters := waiters_incidentsOf a'.gained (c.scene.pool.lost p').length waited hcases
  obtain ⟨hhandedOut, hreclaimed, hfailed, hdiscarded, hlate, hreturned, htornDown⟩ :=
    counts_incidentsOf a'.gained (c.scene.pool.lost p').length waited hcases
  refine h.goOn rfl hhappened hstep ?_ ?_ ?_ ?_ ?_ ?_ ?_
  · have hset : Numbering (c.scene.acquisitions.set i a') c.numbers c.begun
        (waiters (c.earlier ++ c.since) ++ waited) := by
      refine h.numbering.set hi hnumber ?_ ?_
      · intro m hm
        simp [waited, hm]
      · rw [haccounts.deadline, hknown, List.mem_append]
        simp [waited]
    rw [hwaiters]
    unfold renumbered
    rw [hstep]
    exact Scene.numbering_put (s := { c.scene with pool := p', ledger := l' }) hi hset
  · rw [Scene.pool_put, hhandedOut]
    exact haccounts.requests
  · rw [Scene.pool_put, hreclaimed]
    exact haccounts.overdue
  · rw [Scene.pool_put, hwaiters]
    have hbefore := h.waits
    rw [haccounts.waits, hbefore]
    by_cases hwaits : c.scene.pool.tickets < p'.tickets
    swap
    · simp [waited, hwaits]
    -- It is the first wait of the acquisition if it has no deadline yet.
    have hfirst : n ∈ waiters c.earlier ++ waiters c.since ↔ ¬ a.deadline = none := by
      rw [← waiters_append, ← hknown, Option.isSome_iff_ne_none]
    rw [show waited = [n] from if_pos hwaits, card_waits]
    simp [hwaits, hfirst]
  · rw [Scene.pool_put, hdiscarded, hlate, hreturned]
    exact haccounts.bad
  · have hactive := haccounts.active
    rw [Scene.pool_put, hhandedOut, hreturned, hreturned, hreclaimed, htornDown]
    dsimp only
    omega
  · have hplaces := Scene.countP_isClosingBad_put
      (s := { c.scene with pool := p', ledger := l' }) hget a'
    rw [hfailed, hdiscarded]
    dsimp only at hplaces ⊢
    omega

/-- Every event keeps the counts those of the chronicle. -/
theorem Tallied.step (h : c.Tallied) (hs : c.scene.inventory.Separate) (e : Scene.Event ω) :
    (c.step e).Tallied := by
  have hmoves := c.scene.moves_step e
  generalize hstep : c.scene.step e = s' at hmoves
  cases hmoves with
  | begins hthere => exact h.begin hstep rfl rfl
  | @stays i hwaits =>
    refine h.counts rfl ?_ hstep rfl (Pool.counts_of_same rfl rfl)
    have hverdict : c.scene.acquisitions[i]?.bind (·.verdict? c.scene.pool) = none := by
      refine Option.bind_eq_none_iff.mpr fun a ha => ?_
      exact Acquisition.verdict?_of_waits (hwaits a ha)
    rw [Scene.incidents_proceed hstep, hverdict, Pool.lost_eq_nil (List.Subset.refl _)]
    simp [incidentsOf]
  | @proceeds i a a' p' l l' hget hover hsleep hsame hsection =>
    exact h.proceed hget hstep rfl (hsection.accounts hs.nodup_active.of_map) hsection.failures
  | @returns j g p' l' hget hfree hfirst hthere hgiveBack hreturn =>
    refine h.counts rfl ?_ hstep rfl hreturn.counts
    rw [Scene.incidents, hget, Option.bind_some, Scene.comeback?, hfirst, hthere, hfree]
    rfl
  | @outlives j g hget hgone =>
    refine h.counts rfl ?_ hstep rfl (Pool.counts_of_same rfl rfl)
    simp [Scene.incidents, Scene.comeback?, hget, hgone]
  | @returnsAgain j g hget hreturned =>
    refine h.counts rfl ?_ hstep rfl (Pool.counts_of_same rfl rfl)
    simp [Scene.incidents, Scene.comeback?, hget, hreturned]
  | @keepsHandle j hbusy =>
    refine h.counts rfl ?_ hstep rfl (Pool.counts_of_same rfl rfl)
    cases hget : c.scene.handles[j]? with
    | none => simp [Scene.incidents, hget]
    | some g => simp [Scene.incidents, Scene.comeback?, hget, hbusy g hget]
  | closesAll dropped htears hconfig =>
    refine h.counts ?_ (Scene.incidents_of_tearsDown htears) hstep rfl ?_
    · cases e with
      | reconfigure config settings => exact absurd rfl (hconfig config settings)
      | _ => rfl
    · unfold Scene.tearDown
      rw [Pool.tearDown_eq]
      exact Pool.counts_of_nil rfl rfl
  | reconfigures htears =>
    have hcounts : c.scene.pool.Counts (c.scene.pool.active.map fun _ => .tornDown)
        { c.scene.pool with active := [] } := Pool.counts_of_nil rfl rfl
    refine h.anew htears (Scene.incidents_of_tearsDown htears) hstep hcounts.failures
      hcounts.waiters ?_ ?_ rfl
    · unfold Scene.tearDown
      rw [Pool.tearDown_eq]
    · unfold Scene.tearDown
      rw [Pool.tearDown_eq]
  | nothing hproceed hgiveBack htears =>
    refine h.counts ?_ (Scene.incidents_of_nothing hproceed hgiveBack htears) hstep rfl
      (Pool.counts_of_same rfl rfl)
    cases e with
    | reconfigure config settings => exact htears
    | _ => rfl
  | asks | answers | interrupts | wakesAll | closes | disturbs =>
    exact h.counts rfl rfl hstep rfl (Pool.counts_of_same rfl rfl)

theorem Tallied.run (h : c.Tallied) (hs : c.scene.inventory.Separate)
    (events : List (Scene.Event ω)) : (c.run events).Tallied := by
  unfold Chronicle.run
  induction events generalizing c with
  | nil => exact h
  | cons e events ih => exact ih (h.step hs e) (hs.transfer (c.scene.transfer_step e))

/-- What a pool has counted at any time is what has happened since it last started to count: the
handles handed out, the connections taken from their holders, the acquisitions that have waited for
the first time, and the bad connections, that is candidates that had failed their tests, first
returns that came too late and returns that failed the check. Whatever was handed out is still in
use, or came back, or was taken from its holder, or was torn down. -/
theorem run_tallies (settings : ConnectionSettings) (config : PoolConfig) (server : ω)
    (events : List (Scene.Event ω)) :
    let c := (start settings config server).run events
    let s := c.scene
    let t := s.pool.tallies
    s = (Scene.start settings config server).run events ∧
      t.requests = c.since.count .handedOut ∧
      t.overdue = c.since.count .reclaimed ∧
      t.waits = ((waiters c.since).toFinset \ (waiters c.earlier).toFinset).card ∧
      t.bad = c.since.count .discarded + c.since.count .late + c.since.count (.returned false) ∧
      (c.earlier ++ c.since).count .failed = (c.earlier ++ c.since).count .discarded +
        s.acquisitions.countP (·.isClosingBad) ∧
      t.requests = s.pool.active.length +
        (c.since.count (.returned true) + c.since.count (.returned false)) + t.overdue +
        c.since.count .tornDown ∧
      ∀ (j : Nat) (h : Handle), s.handles[j]? = some h → h.returned = true →
        s.step (.giveBack j) = s ∨
          s.step (.giveBack j) = { s with ledger := (Clock.read s.ledger).2 } := by
  intro c s t
  have h : c.Tallied := (tallied_start settings config server).run
    (Scene.separate_start settings config server) events
  refine ⟨scene_run _ events, h.requests, h.overdue, h.waits, h.bad, h.failures, ?_, ?_⟩
  · have hactive := h.active
    rwa [← h.requests, ← h.overdue] at hactive
  · exact fun j g hget hreturned => Scene.giveBack_of_returned hget hreturned

/-- The second acquisition takes the connection of the first, whose handle then comes back late. -/
example : ((start Scene.narrow.pool.settings Scene.narrow.pool.config ⟨0⟩).run
    (Scene.acquiring ++ Scene.acquiring ++ [.giveBack 0])).since =
      [.handedOut, .reclaimed, .handedOut, .late] := by
  decide

end Chronicle

end SqlMapper
