import Mathlib.Data.Multiset.MapFold
import SqlMapper.Proofs.Pool.Scene
import SqlMapper.Proofs.Pool.Writes

/-!
An inventory of a scene: which slot is where, who may use what, and what the ledger says. A physical
connection moves between four places by a few transfers, from which all else follows.
-/

namespace SqlMapper

open Ledger

inductive Stage where
  | testing (left : List Slot.Test)
  | tested (good : Bool)
  deriving DecidableEq

/-- A slot that was chosen at some generation and about which nothing is decided yet. -/
structure Candidate where
  slot : Slot
  generation : Nat
  stage : Stage

def Acquisition.candidate? (a : Acquisition) : Option Candidate :=
  match a.phase with
  | .checking slot _ generation left => some ⟨slot, generation, .testing left⟩
  | .checked slot generation good => some ⟨slot, generation, .tested good⟩
  | _ => none

def Acquisition.condemned? (a : Acquisition) : Option Slot :=
  match a.phase with
  | .discarding slot _ => some slot
  | _ => none

def Chore.condemned? : Chore → Option Slot
  | .wakeAll => none
  | .close slot => some slot

structure Inventory where
  maxActive : Nat
  maxIdle : Nat
  idle : List Slot
  active : List Slot
  pending : Nat
  generation : Nat
  wrappers : Nat
  physicals : Nat
  live : List Nat
  candidates : Multiset Candidate
  /-- Taken out of the pool, to be closed. -/
  condemned : Multiset Slot
  handles : List (Nat × Physical)
  calls : Multiset Ongoing
  openings : List Opening
  entries : List Entry

def Acquisition.handed? (a : Acquisition) : Option (Nat × Physical) :=
  match a.phase with
  | .done (.ok h) => some (h.wrapper, h.physical)
  | _ => none

variable {ω : Type}

def Inventory.of (p : Pool) (l : Ledger ω) (candidates : Multiset Candidate)
    (condemned : Multiset Slot) (handles : List (Nat × Physical)) (calls : Multiset Ongoing) :
    Inventory where
  maxActive := p.config.maxActive.toNat
  maxIdle := p.config.maxIdle.toNat
  idle := p.idle
  active := p.active
  pending := p.pending
  generation := p.generation
  wrappers := p.wrappers
  physicals := p.physicals
  live := p.live
  candidates := candidates
  condemned := condemned
  handles := handles
  calls := calls
  openings := l.openings
  entries := l.entries

namespace Scene

def candidates (s : Scene ω) : List Candidate := s.acquisitions.filterMap (·.candidate?)

def condemned (s : Scene ω) : List Slot :=
  s.acquisitions.filterMap (·.condemned?) ++ s.chores.flatten.filterMap (·.condemned?)

def inventory (s : Scene ω) : Inventory :=
  .of s.pool s.ledger s.candidates s.condemned (s.handles.map fun h => (h.wrapper, h.physical))
    s.calls

end Scene

namespace Inventory

inductive Transfer (v : Inventory) : Inventory → Prop where
  | same : Transfer v v
  | pick {slot : Slot} {rest : List Slot} (hidle : v.idle = slot :: rest) :
    Transfer v { v with
      idle := rest
      pending := v.pending + 1
      candidates := ⟨slot, v.generation, .testing (Slot.tests false)⟩ ::ₘ v.candidates }
  | fail {opening : Opening} {es : List Entry} (habout : IsAbout v.openings.length es)
      (hclosed : isClosed v.openings.length es = true) :
    Transfer v { v with
      openings := v.openings ++ [opening]
      entries := es ++ v.entries }
  | connect {opening : Opening} {es : List Entry} {slot : Slot} (hidle : v.idle = [])
      (hroom : v.active.length + v.pending < v.maxActive) (hsound : IsSound v.openings.length es)
      (hwrapper : slot.wrapper = v.wrappers + 1)
      (hphysical : slot.physical = ⟨v.physicals + 1, v.openings.length⟩) :
    Transfer v { v with
      wrappers := v.wrappers + 1
      physicals := v.physicals + 1
      live := (v.wrappers + 1) :: v.live
      pending := v.pending + 1
      candidates := ⟨slot, v.generation, .testing (Slot.tests false)⟩ ::ₘ v.candidates
      openings := v.openings ++ [opening]
      entries := es ++ v.entries }
  | reclaim {slot slot' : Slot} {rest : List Slot} (hidle : v.idle = [])
      (hactive : v.active = slot :: rest) (hwrapper : slot'.wrapper = v.wrappers + 1)
      (hphysical : slot'.physical = slot.physical) :
    Transfer v { v with
      active := rest
      wrappers := v.wrappers + 1
      live := (v.wrappers + 1) :: v.live.filter (· != slot.wrapper)
      pending := v.pending + 1
      candidates := ⟨slot', v.generation, .testing (Slot.tests true)⟩ ::ₘ v.candidates }
  | pass {slot : Slot} {generation : Nat} {test : Slot.Test} {left : List Slot.Test}
      {rest : Multiset Candidate} {es : List Entry}
      (hcandidates : v.candidates = ⟨slot, generation, .testing (test :: left)⟩ ::ₘ rest)
      (hpassed : slot.Passed test es)
      (hfree : test ≠ .live → ∀ c ∈ v.calls, c.connection ≠ slot.physical.connection) :
    Transfer v { v with
      candidates := ⟨slot, generation, .testing left⟩ ::ₘ rest
      entries := es ++ v.entries }
  | failTest {slot : Slot} {generation : Nat} {test : Slot.Test} {left : List Slot.Test}
      {rest : Multiset Candidate} {es : List Entry}
      (hcandidates : v.candidates = ⟨slot, generation, .testing (test :: left)⟩ ::ₘ rest)
      (habout : IsAbout slot.physical.connection es) :
    Transfer v { v with
      candidates := ⟨slot, generation, .tested false⟩ ::ₘ rest
      entries := es ++ v.entries }
  | finish {slot : Slot} {generation : Nat} {rest : Multiset Candidate}
      (hcandidates : v.candidates = ⟨slot, generation, .testing []⟩ ::ₘ rest) :
    Transfer v { v with candidates := ⟨slot, generation, .tested true⟩ ::ₘ rest }
  | handOut {slot slot' : Slot} {rest : Multiset Candidate}
      (hcandidates : v.candidates = ⟨slot, v.generation, .tested true⟩ ::ₘ rest)
      (hwrapper : slot'.wrapper = slot.wrapper) (hphysical : slot'.physical = slot.physical) :
    Transfer v { v with
      candidates := rest
      pending := v.pending - 1
      active := v.active ++ [slot']
      handles := v.handles ++ [(slot.wrapper, slot.physical)] }
  | reject {slot : Slot} {generation : Nat} {good : Bool} {rest : Multiset Candidate}
      (hcandidates : v.candidates = ⟨slot, generation, .tested good⟩ ::ₘ rest) :
    Transfer v { v with
      candidates := rest
      pending := v.pending - 1
      live := v.live.filter (· != slot.wrapper)
      condemned := slot ::ₘ v.condemned }
  | close {slot : Slot} {rest : Multiset Slot} {es : List Entry}
      (hcondemned : v.condemned = slot ::ₘ rest) (habout : IsAbout slot.physical.connection es)
      (hclosed : isClosed slot.physical.connection es = true) :
    Transfer v { v with
      condemned := rest
      entries := es ++ v.entries }
  | keep {slot slot' : Slot} {before after : List Slot} {es : List Entry}
      (hactive : v.active = before ++ slot :: after) (hroom : v.idle.length < v.maxIdle)
      (hsound : IsSound slot.physical.connection es) (hwrapper : slot'.wrapper = v.wrappers + 1)
      (hphysical : slot'.physical = slot.physical)
      (hdone : ∀ c ∈ v.calls, c.wrapper ≠ slot.wrapper) :
    Transfer v { v with
      active := before ++ after
      idle := v.idle ++ [slot']
      wrappers := v.wrappers + 1
      live := (v.wrappers + 1) :: v.live.filter (· != slot.wrapper)
      entries := es ++ v.entries }
  | discard {slot : Slot} {before after : List Slot} {es : List Entry}
      (hactive : v.active = before ++ slot :: after) (habout : IsAbout slot.physical.connection es)
      (hclosed : isClosed slot.physical.connection es = true) :
    Transfer v { v with
      active := before ++ after
      live := v.live.filter (· != slot.wrapper)
      entries := es ++ v.entries }
  | tearDown (maxActive maxIdle : Nat) :
    Transfer v { v with
      maxActive := maxActive
      maxIdle := maxIdle
      idle := []
      active := []
      generation := v.generation + 1
      live := v.live.filter fun x => !((v.active ++ v.idle).map (·.wrapper)).contains x
      condemned := v.condemned + ↑(v.active ++ v.idle) }
  | ask {wrapper : Nat} {physical : Physical} {call : Call}
      (hhandle : (wrapper, physical) ∈ v.handles) (hlive : wrapper ∈ v.live)
      (hcall : call ≠ .close) :
    Transfer v { v with calls := ⟨wrapper, physical.connection, call⟩ ::ₘ v.calls }
  | answer {c : Ongoing} {rest : Multiset Ongoing} {reply : Except Error c.call.Reply}
      (hcalls : v.calls = c ::ₘ rest) :
    Transfer v { v with
      calls := rest
      entries := ⟨some c.wrapper, c.connection, c.call, reply⟩ :: v.entries }

variable {v v' : Inventory}

/-- A transfer adds entries of the pool about one connection, or the answer to a call. -/
theorem Transfer.writes (h : v.Transfer v') :
    (∃ n es, v'.entries = es ++ v.entries ∧ IsAbout n es) ∨
      ∃ c ∈ v.calls, ∃ reply,
        v'.entries = ⟨some c.wrapper, c.connection, c.call, reply⟩ :: v.entries := by
  have hnone : IsAbout 0 [] := fun e he => absurd he List.not_mem_nil
  cases h with
  | same | pick | reclaim | finish | handOut | reject | tearDown | ask =>
    exact .inl ⟨0, [], rfl, hnone⟩
  | connect hidle hroom hsound => exact .inl ⟨_, _, rfl, hsound.about⟩
  | pass hcandidates hpassed => exact .inl ⟨_, _, rfl, hpassed.sound.about⟩
  | keep hactive hroom hsound => exact .inl ⟨_, _, rfl, hsound.about⟩
  | fail habout => exact .inl ⟨_, _, rfl, habout⟩
  | failTest hcandidates habout => exact .inl ⟨_, _, rfl, habout⟩
  | close hcondemned habout => exact .inl ⟨_, _, rfl, habout⟩
  | discard hactive habout => exact .inl ⟨_, _, rfl, habout⟩
  | answer hcalls => exact .inr ⟨_, hcalls ▸ Multiset.mem_cons_self _ _, _, rfl⟩

/-- A call that goes on was going on before, or its wrapper was live. -/
theorem Transfer.calls (h : v.Transfer v') : ∀ c ∈ v'.calls, c ∈ v.calls ∨ c.wrapper ∈ v.live := by
  cases h with
  | ask hhandle hlive =>
    intro c hc
    rcases Multiset.mem_cons.mp hc with rfl | hc
    · exact .inr hlive
    · exact .inl hc
  | answer hcalls => exact fun c hc => .inl (hcalls ▸ Multiset.mem_cons_of_mem hc)
  | _ => exact fun c hc => .inl hc

/-- No opening is ever forgotten. -/
theorem Transfer.openings_grow (h : v.Transfer v') : v.openings <+: v'.openings := by
  cases h with
  | fail | connect => exact List.prefix_append _ _
  | _ => exact List.prefix_refl _

theorem Transfer.generation_le (h : v.Transfer v') :
    v.generation ≤ v'.generation := by
  cases h with
  | tearDown => exact Nat.le_succ _
  | _ => exact le_refl _

/-- What is handed out is in use at once; apart from that no handle comes or goes. -/
theorem Transfer.handles (h : v.Transfer v') : v'.handles = v.handles ∨
    ∃ slot ∈ v'.active, v'.handles = v.handles ++ [(slot.wrapper, slot.physical)] := by
  cases h with
  | @handOut slot slot' rest hcandidates hwrapper hphysical =>
    refine .inr ⟨slot', List.mem_append_right _ (List.mem_singleton_self _), ?_⟩
    rw [hwrapper, hphysical]
  | _ => exact .inl rfl

theorem Transfer.handles_grow (h : v.Transfer v') : v.handles <+: v'.handles := by
  rcases h.handles with hsame | ⟨slot, -, hnew⟩
  · exact hsame ▸ List.prefix_refl _
  · exact hnew ▸ List.prefix_append _ _

end Inventory
end SqlMapper
