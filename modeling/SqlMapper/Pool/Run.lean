import SqlMapper.Pool.Return

/-!
Running acquisitions from section to section: one alone, or several side by side. Time passes only
when nobody can go on, and an acquisition that waits for ever has no result.
-/

namespace SqlMapper

open Connection

/-- What a step that leaves the pool free does to a server, and what becomes of the pool
meanwhile. -/
abbrev Meanwhile (ω : Type) := {α : Type} → StateM ω α → Pool → ω → α × Pool × ω

def undisturbed {ω : Type} : Meanwhile ω := fun step p w =>
  let (a, w) := step w
  (a, p, w)

namespace Acquisition

variable {ω : Type} [Server ω] [Clock ω]

def step (meanwhile : Meanwhile ω) (a : Acquisition) (p : Pool) (w : ω) :
    Acquisition × Pool × ω :=
  let (now, w) := Clock.read w
  match a.phase with
  | .starting => p.enter now a w
  | .parked ticket _ => p.wake now ticket a w
  | .checking slot _ generation [] => (a.goTo (.checked slot generation true), p, w)
  | .checking slot config generation (test :: left) =>
    let (good, p, w) := meanwhile (slot.passes config now (p.isLive slot.wrapper) test) p w
    let phase :=
      if good then .checking slot config generation left else .checked slot generation false
    (a.goTo phase, p, w)
  | .checked slot generation good =>
    let (a, p) := p.conclude now slot generation good a
    (a, p, w)
  | .discarding slot bad =>
    let ((), p, w) := meanwhile (closeQuietly slot.physical.connection) p w
    (a.goTo (.discarded bad), p, w)
  | .discarded bad => p.resume now bad a w
  | .done _ => (a, p, w)

def result? (a : Acquisition) : Option (Except Error Handle) :=
  match a.phase with
  | .done r => some r
  | _ => none

def isAsleep (a : Acquisition) (p : Pool) : Bool :=
  match a.phase with
  | .parked ticket _ => p.parked.contains ticket
  | _ => false

def wakeAt? (a : Acquisition) : Option Instant :=
  match a.phase with
  | .parked _ wakeAt => wakeAt
  | _ => none

def isChecking (a : Acquisition) : Bool :=
  match a.phase with
  | .checking _ _ _ _ => true
  | _ => false

def sleep? (a : Acquisition) (p : Pool) (w : ω) : Option ω :=
  if a.isAsleep p then a.wakeAt?.map (Clock.waitUntil · w) else some w

def run (meanwhile : Meanwhile ω) :
    Nat → Acquisition → Pool → ω → Option (Except Error Handle × Pool × ω)
  | 0, _, _, _ => none
  | sections + 1, a, p, w =>
    match a.result? with
    | some r => some (r, p, w)
    | none =>
      match a.sleep? p w with
      | none => none
      | some w =>
        let (a, p, w) := a.step meanwhile p w
        run meanwhile sections a p w

/-- Runs an acquisition until it waits, is over or is about to take its time, in at most the given
number of sections. -/
def proceed (meanwhile : Meanwhile ω) (lingers : Acquisition → ω → Bool) :
    Nat → Acquisition → Pool → ω → Acquisition × Pool × ω
  | 0, a, p, w => (a, p, w)
  | sections + 1, a, p, w =>
    if a.result?.isSome || a.isAsleep p || lingers a w then (a, p, w)
    else
      let (a, p, w) := a.step meanwhile p w
      proceed meanwhile lingers sections a p w

/-- More sections than any acquisition goes through: it meets less than `2 ^ 64` bad connections. -/
def sectionBound : Nat := Nat.pow 2 70

end Acquisition

namespace Pool

variable {ω : Type} [Server ω] [Clock ω]

def acquire (meanwhile : Meanwhile ω) (username password : Option String) (p : Pool) (w : ω) :
    Option (Except Error Handle × Pool × ω) :=
  let (now, w) := Clock.read w
  (Acquisition.start username password now).run meanwhile Acquisition.sectionBound p w

def connection (meanwhile : Meanwhile ω) (p : Pool) (w : ω) :
    Option (Except Error Handle × Pool × ω) :=
  p.acquire meanwhile p.settings.username p.settings.password w

end Pool

def Handle.release {ω : Type} [Server ω] [Clock ω] (h : Handle) (p : Pool) (w : ω) :
    Handle × Pool × ω :=
  let (now, w) := Clock.read w
  h.close now p w

structure Crowd.Member where
  acquisition : Acquisition
  party : Nat
  keeps : Bool

structure Crowd where
  present : List Crowd.Member := []
  results : List (Nat × Except Error Handle) := []

namespace Crowd

variable {ω : Type}

def resultsOf (party : Nat) (c : Crowd) : List (Except Error Handle) :=
  c.results.filterMap fun r => if r.1 = party then some r.2 else none

def earliest? (ms : List Member) : Option Nat :=
  let times := ms.zipIdx.filterMap fun (m, i) => m.acquisition.wakeAt?.map fun t => (t.nanos, i)
  (times.mergeSort fun x y => decide (x.1 ≤ y.1)).head?.map (·.2)

/-- The place of the one who goes on next: the first who is awake, but rather one who does not take
its time, or else the one who wakes first. -/
def next? (lingers : Acquisition → ω → Bool) (p : Pool) (w : ω) (ms : List Member) : Option Nat :=
  let awake (m : Member) : Bool := !m.acquisition.isAsleep p
  (ms.findIdx? fun m => awake m && !lingers m.acquisition w).or
    ((ms.findIdx? awake).or (earliest? ms))

variable [Server ω] [Clock ω]

def finish (keeps : Bool) (r : Except Error Handle) (p : Pool) (w : ω) :
    Except Error Handle × Pool × ω :=
  match r with
  | .ok h =>
    if keeps then (.ok h, p, w)
    else
      let (h, p, w) := h.release p w
      (.ok h, p, w)
  | .error e => (.error e, p, w)

variable (meanwhile : Meanwhile ω) (lingers : Acquisition → ω → Bool)

def gather (party : Nat) (keeps : Bool) : Nat → Crowd → Pool → ω → Crowd × Pool × ω
  | 0, c, p, w => (c, p, w)
  | more + 1, c, p, w =>
    let (now, w) := Clock.read w
    let a := Acquisition.start p.settings.username p.settings.password now
    let (a, p, w) := a.proceed meanwhile lingers Acquisition.sectionBound p w
    gather party keeps more { c with present := c.present ++ [⟨a, party, keeps⟩] } p w

def turn (c : Crowd) (p : Pool) (w : ω) : Option (Crowd × Pool × ω) := do
  let i ← next? lingers p w c.present
  let m ← c.present[i]?
  let w ← m.acquisition.sleep? p w
  let (a, p, w) := m.acquisition.step meanwhile p w
  let (a, p, w) := a.proceed meanwhile lingers Acquisition.sectionBound p w
  let others := c.present.eraseIdx i
  match a.result? with
  | some r =>
    let (r, p, w) := finish m.keeps r p w
    return ({ c with present := others, results := c.results ++ [(m.party, r)] }, p, w)
  | none => return ({ c with present := others ++ [{ m with acquisition := a }] }, p, w)

def settle (party : Nat) : Nat → Crowd → Pool → ω → Option (Crowd × Pool × ω)
  | 0, _, _, _ => none
  | turns + 1, c, p, w =>
    if c.present.all (·.party != party) then some (c, p, w)
    else do
      let (c, p, w) ← turn meanwhile lingers c p w
      settle party turns c p w

end Crowd
end SqlMapper
