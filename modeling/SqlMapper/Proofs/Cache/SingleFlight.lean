import Mathlib.Data.List.Nodup
import SqlMapper.Cache.Layers

/-!
Callers of one guarded cache, side by side. A key is locked exactly while one caller is past the
lock or owes the key. Whoever waits, does so on a latch that is open, or still in the table, or was
taken out by a caller that opens it next.
-/

namespace SqlMapper

namespace Flight

inductive Stage where
  | idle
  | claiming (key : CacheKey)
  /-- It found the key locked by another one, and waits on the latch it found. -/
  | waiting (key : CacheKey) (latch : Nat)
  | asking (key : CacheKey)
  | storing (key : CacheKey) (v : Value)
  /-- It gives the key back: the latch is to leave the table. -/
  | withdrawing (key : CacheKey) (answer : Except Error (Option Value))
  /-- It gives the key back: the latch, no longer in the table, is to be opened. -/
  | opening (latch : Nat) (answer : Except Error (Option Value))
  deriving DecidableEq

structure Caller where
  stage : Stage
  /-- The keys for which it found nothing and which it has not begun to give back. -/
  missed : List CacheKey
  answers : List (Except Error (Option Value))

namespace Caller

def fresh : Caller := ⟨.idle, [], []⟩

/-- The keys that a caller is getting past the lock, or has missed and not given back. -/
def holding (c : Caller) : List CacheKey :=
  match c.stage with
  | .asking key | .storing key _ | .withdrawing key _ => key :: c.missed
  | .idle | .claiming _ | .waiting _ _ | .opening _ _ => c.missed

def reply (answer : Except Error (Option Value)) (c : Caller) : Caller :=
  { c with stage := .idle, answers := answer :: c.answers }

inductive Act where
  | get (key : CacheKey)
  | put (key : CacheKey) (v : Value)
  /-- It gives a key back without a value, by a release or by a removal: under a lock both do the
  same. -/
  | giveUp (key : CacheKey)
  | proceed
  | timeUp

section

variable {β : Type} [Store β]

def step (c : Caller) (l : Locks) (inner : Cache β) : Option (Caller × Locks × Cache β) :=
  match c.stage with
  | .idle => none
  | .claiming key =>
    match l.claim key with
    | (.taken, l) => some ({ c with stage := .asking key }, l, inner)
    | (.busy latch, l) => some ({ c with stage := .waiting key latch }, l, inner)
  | .waiting key latch =>
    if latch ∈ l.opened then some ({ c with stage := .claiming key }, l, inner) else none
  | .asking key =>
    (inner.get key).map fun (found, inner) =>
      match found with
      | .ok none => ({ c with missed := key :: c.missed }.reply (.ok none), l, inner)
      | found => ({ c with stage := .withdrawing key found }, l, inner)
  | .storing key v =>
    let (stored, inner) := inner.put key v
    some ({ c with stage := .withdrawing key (stored.map fun _ => none) }, l, inner)
  | .withdrawing key answer =>
    match l.withdraw key with
    | (some latch, l) => some ({ c with stage := .opening latch answer }, l, inner)
    | (none, _) =>
      let (released, l) := l.release key
      some (c.reply (answer.bind fun v => released.map fun _ => v), l, inner)
  | .opening latch answer => some (c.reply answer, l.openLatch latch, inner)

/-- What an act changes, unless it is out of place. A caller begins one operation after the other,
and gives back a key only after it missed the key, and then once. Time is up only for one who waits
with a bound, on a latch that is not open. -/
def act (a : Act) (c : Caller) (l : Locks) (inner : Cache β) :
    Option (Caller × Locks × Cache β) :=
  match a, c.stage with
  | .get key, .idle => some ({ c with stage := .claiming key }, l, inner)
  | .put key v, .idle =>
    if key ∈ c.missed then
      some ({ c with stage := .storing key v, missed := c.missed.erase key }, l, inner)
    else none
  | .giveUp key, .idle =>
    if key ∈ c.missed then
      some ({ c with stage := .withdrawing key (.ok none), missed := c.missed.erase key }, l, inner)
    else none
  | .timeUp, .waiting key latch =>
    if l.bounded ∧ latch ∉ l.opened then
      some (c.reply (.error (l.timedOut key inner.id)), l, inner)
    else none
  | .proceed, _ => c.step l inner
  | _, _ => none

/-! A caller that is alone does in steps what the guarded cache does at one go. -/

def lastAnswer (c : Caller) : Except Error (Option Value) :=
  c.answers.head?.getD (.ok none)

def finish : Nat → Caller → Locks → Cache β → Option (Caller × Locks × Cache β)
  | 0, c, l, inner => some (c, l, inner)
  | steps + 1, c, l, inner =>
    match c.stage with
    | .idle => some (c, l, inner)
    | _ => (c.step l inner).bind fun (c, l, inner) => finish steps c l inner

variable (missed : List CacheKey) (answers : List (Except Error (Option Value))) (l : Locks)
  (inner : Cache β) (key : CacheKey)

theorem finish_withdrawing (answer : Except Error (Option Value)) (steps : Nat) :
    finish (steps + 2) ⟨.withdrawing key answer, missed, answers⟩ l inner =
      some (⟨.idle, missed, answer.bind (fun v => (l.release key).1.map fun _ => v) :: answers⟩,
        (l.release key).2, inner) := by
  simp only [finish, step, Locks.release, Locks.withdraw]
  cases l.held.lookup key with
  | none => cases steps <;> rfl
  | some latch => cases steps <;> cases answer <;> rfl

theorem finish_release : (finish 2 ⟨.withdrawing key (.ok none), missed, answers⟩ l inner).map
    (fun (c, l, inner) => (c.lastAnswer.map fun _ => (), Cache.guarded l inner)) =
      some ((Cache.guarded l inner).release key) := by
  rw [finish_withdrawing, Option.map_some, Cache.release]
  rcases l.release key with ⟨e | u, l'⟩ <;> rfl

theorem finish_remove : (finish 2 ⟨.withdrawing key (.ok none), missed, answers⟩ l inner).map
    (fun (c, l, inner) => (c.lastAnswer, Cache.guarded l inner)) =
      some ((Cache.guarded l inner).remove key) := by
  rw [finish_withdrawing, Option.map_some, Cache.remove]
  rcases l.release key with ⟨e | u, l'⟩ <;> rfl

theorem finish_put (v : Value) : (finish 3 ⟨.storing key v, missed, answers⟩ l inner).map
    (fun (c, l, inner) => (c.lastAnswer.map fun _ => (), Cache.guarded l inner)) =
      some ((Cache.guarded l inner).put key v) := by
  rw [finish]
  dsimp only [step]
  rw [Option.bind_some, finish_withdrawing, Option.map_some, Cache.put]
  rcases inner.put key v with ⟨e | u, inner'⟩ <;> rcases l.release key with ⟨e' | u', l'⟩ <;> rfl

/-- A key that is free is locked and asked for. -/
theorem finish_get (hfree : l.held.lookup key = none) :
    (finish 4 ⟨.claiming key, missed, answers⟩ l inner).map
      (fun (c, l, inner) => (c.lastAnswer, Cache.guarded l inner)) =
        (Cache.guarded l inner).get key := by
  rw [finish]
  dsimp only [step, Locks.claim, Cache.get]
  rw [hfree]
  dsimp only [Option.bind_some]
  rw [finish]
  dsimp only [step]
  cases inner.get key with
  | none => rfl
  | some found =>
    obtain ⟨e | v, inner'⟩ := found
    · dsimp only [Option.map_some, Option.bind_some]
      rw [finish_withdrawing]
      rfl
    · cases v with
      | none => rfl
      | some v =>
        dsimp only [Option.map_some, Option.bind_some]
        rw [finish_withdrawing, Option.map_some]
        generalize Locks.release key _ = released
        obtain ⟨e | u, l'⟩ := released <;> rfl

/-- A key that is locked is waited for; alone, until the time is up. -/
theorem act_timeUp {latch : Nat} (hlocked : l.held.lookup key = some latch)
    (hclosed : latch ∉ l.opened) :
    ((step ⟨.claiming key, missed, answers⟩ l inner).bind fun (c, l, inner) =>
      (c.act .timeUp l inner).map fun (c, l, inner) => (c.lastAnswer, Cache.guarded l inner)) =
        (Cache.guarded l inner).get key := by
  dsimp only [step, Locks.claim, Cache.get]
  rw [hlocked]
  dsimp only [Option.bind_some, act]
  by_cases hbounded : l.bounded
  · rw [if_pos ⟨hbounded, hclosed⟩, if_pos hbounded]
    rfl
  · rw [if_neg fun h => hbounded h.1, if_neg hbounded]
    rfl

end
end Caller
end Flight

structure Flight (β : Type) where
  locks : Locks
  inner : Cache β
  callers : List Flight.Caller

namespace Flight

variable {β : Type}

inductive Event where
  | act (caller : Nat) (a : Caller.Act)
  | clear

def start (timeout : Option Duration) (inner : Cache β) (callers : Nat) : Flight β :=
  ⟨.start timeout, inner, List.replicate callers .fresh⟩

section

variable [Store β]

def step (s : Flight β) : Event → Flight β
  | .act i a =>
    match s.callers[i]? with
    | none => s
    | some c =>
      match c.act a s.locks s.inner with
      | none => s
      | some (c, locks, inner) => ⟨locks, inner, s.callers.set i c⟩
  | .clear => { s with inner := s.inner.clear }

def run (s : Flight β) (events : List Event) : Flight β := events.foldl step s

end

/-! One act. -/

structure Moves (c : Caller) (l : Locks) (c' : Caller) (l' : Locks) : Prop where
  opened : l.opened ⊆ l'.opened
  opens : ∀ latch answer, c.stage = .opening latch answer → latch ∈ l'.opened
  waits : ∀ key latch, c'.stage = .waiting key latch → (key, latch) ∈ l'.held
  /-- The table stays as it is, or takes a free key, or loses one, whose latch is then to be
  opened. -/
  table : (l'.held = l.held ∧ c'.holding.Perm c.holding) ∨
    (∃ key, l.held.lookup key = none ∧ l'.held = (key, l.next) :: l.held ∧
      c'.holding.Perm (key :: c.holding)) ∨
    (∃ key, l'.held = l.held.filter (fun e => e.1 != key) ∧ c.holding.Perm (key :: c'.holding) ∧
      ∀ latch, l.held.lookup key = some latch → ∃ answer, c'.stage = .opening latch answer)

namespace Moves

variable {c c' : Caller} {l : Locks}

/-- An act that leaves the table alone. -/
theorem of_holding (hopening : ∀ latch answer, c.stage ≠ .opening latch answer)
    (hwaiting : ∀ key latch, c'.stage ≠ .waiting key latch) (hholding : c'.holding.Perm c.holding) :
    Moves c l c' l where
  opened := List.Subset.refl _
  opens latch answer h := absurd h (hopening latch answer)
  waits key latch h := absurd h (hwaiting key latch)
  table := .inl ⟨rfl, hholding⟩

end Moves

namespace Caller

variable [Store β] {c c' : Caller} {l l' : Locks} {inner inner' : Cache β}

/-- Every step of a caller is one of the moves. -/
theorem moves_step (h : c.step l inner = some (c', l', inner')) : Moves c l c' l' := by
  obtain ⟨stage, missed, answers⟩ := c
  cases stage with
  | idle => exact nomatch h
  | claiming key =>
    unfold step Locks.claim at h
    dsimp only at h
    cases hlookup : l.held.lookup key with
    | some latch =>
      rw [hlookup] at h
      cases h
      -- It waits on the latch that it found, which is in the table.
      obtain ⟨before, after, hheld, -⟩ := List.lookup_eq_some_iff.mp hlookup
      refine ⟨List.Subset.refl _, nofun, ?_, .inl ⟨rfl, .rfl⟩⟩
      rintro _ _ ⟨⟩
      rw [hheld]
      exact List.mem_append_right before List.mem_cons_self
    | none =>
      rw [hlookup] at h
      cases h
      exact ⟨List.Subset.refl _, nofun, nofun, .inr (.inl ⟨key, hlookup, rfl, .rfl⟩)⟩
  | waiting key latch =>
    unfold step at h
    dsimp only at h
    split at h
    · cases h
      exact .of_holding nofun nofun .rfl
    · exact nomatch h
  | asking key =>
    unfold step at h
    obtain ⟨⟨found, inner₁⟩, -, hfound⟩ := Option.map_eq_some_iff.mp h
    dsimp only at hfound
    split at hfound
    · cases hfound
      exact .of_holding nofun nofun .rfl
    · cases hfound
      exact .of_holding nofun nofun .rfl
  | storing key v =>
    cases h
    exact .of_holding nofun nofun .rfl
  | withdrawing key answer =>
    unfold step at h
    dsimp only [Locks.withdraw] at h
    cases hlookup : l.held.lookup key with
    | some latch =>
      rw [hlookup] at h
      cases h
      refine ⟨List.Subset.refl _, nofun, nofun, .inr (.inr ⟨key, rfl, .rfl, ?_⟩)⟩
      intro latch' hlatch'
      rw [hlookup] at hlatch'
      cases hlatch'
      exact ⟨answer, rfl⟩
    | none =>
      -- A key that is not locked cannot be given back. That never happens, but no step rules it out.
      simp only [Locks.release, Locks.withdraw, hlookup] at h
      cases h
      refine ⟨List.Subset.refl _, nofun, nofun, .inr (.inr ⟨key, rfl, .rfl, ?_⟩)⟩
      intro latch' hlatch'
      exact nomatch hlookup.symm.trans hlatch'
  | opening latch answer =>
    cases h
    refine ⟨List.subset_cons_self _ _, ?_, nofun, .inl ⟨rfl, .rfl⟩⟩
    rintro _ _ ⟨⟩
    exact List.mem_cons_self

/-- What a caller may give back is no longer among what it missed then. -/
theorem moves_giveBack {key : CacheKey} {stage : Stage} (hmissed : key ∈ c.missed)
    (hidle : c.stage = .idle) (hc' : c' = ⟨stage, c.missed.erase key, c.answers⟩)
    (hholding : c'.holding = key :: c.missed.erase key)
    (hwaiting : ∀ key latch, stage ≠ .waiting key latch) : Moves c l c' l := by
  refine .of_holding (by simp [hidle]) (by simpa [hc'] using hwaiting) ?_
  rw [hholding, holding, hidle]
  exact (List.perm_cons_erase hmissed).symm

/-- No other act than a step of an operation comes near the table. -/
theorem moves_act {a : Act} (h : c.act a l inner = some (c', l', inner')) : Moves c l c' l' := by
  unfold act at h
  split at h
  · rename_i hidle
    cases h
    exact .of_holding (by simp [hidle]) nofun (by simp [holding, hidle])
  · rename_i key v hidle
    split at h
    · rename_i hmissed
      cases h
      exact moves_giveBack hmissed hidle rfl rfl nofun
    · exact nomatch h
  · rename_i key hidle
    split at h
    · rename_i hmissed
      cases h
      exact moves_giveBack hmissed hidle rfl rfl nofun
    · exact nomatch h
  · rename_i key latch hwaiting
    split at h
    · cases h
      exact .of_holding (by simp [hwaiting]) nofun (by simp [holding, reply, hwaiting])
    · exact nomatch h
  · exact moves_step h
  · exact nomatch h

end Caller

open scoped List in
/-- One element changed, the others stay. -/
theorem perm_flatMap_set {α γ : Type} {f : α → List γ} {x y : List γ} {l : List α} {i : Nat}
    {a b : α} (h : l[i]? = some a) (hab : x ++ f b ~ y ++ f a) :
    x ++ (l.set i b).flatMap f ~ y ++ l.flatMap f := by
  -- On the list, up to the place of the change.
  induction l generalizing i with
  | nil => exact nomatch h
  | cons c l ih =>
    cases i with
    | zero =>
      obtain rfl := Option.some.inj h
      rw [List.set_cons_zero, List.flatMap_cons, List.flatMap_cons, ← List.append_assoc,
        ← List.append_assoc]
      exact hab.append_right _
    | succ i =>
      rw [List.set_cons_succ, List.flatMap_cons, List.flatMap_cons]
      calc x ++ (f c ++ (l.set i b).flatMap f)
          ~ f c ++ (x ++ (l.set i b).flatMap f) := List.perm_append_comm_assoc _ _ _
        _ ~ f c ++ (y ++ l.flatMap f) := (ih h).append_left _
        _ ~ y ++ (f c ++ l.flatMap f) := List.perm_append_comm_assoc _ _ _

structure Single (s : Flight β) : Prop where
  table : (s.locks.held.map (·.1)).Perm (s.callers.flatMap Caller.holding)
  nodup : (s.locks.held.map (·.1)).Nodup
  waits : ∀ c ∈ s.callers, ∀ key latch, c.stage = .waiting key latch →
    latch ∈ s.locks.opened ∨ (key, latch) ∈ s.locks.held ∨
      ∃ other ∈ s.callers, ∃ answer, other.stage = .opening latch answer

theorem single_start (timeout : Option Duration) (inner : Cache β) (n : Nat) :
    (start timeout inner n).Single := by
  have hfresh : ∀ c ∈ List.replicate n Caller.fresh, c = Caller.fresh := fun c hc =>
    List.eq_of_mem_replicate hc
  refine ⟨?_, List.nodup_nil, fun c hc key latch hwaiting => ?_⟩
  · have hnone : (List.replicate n Caller.fresh).flatMap Caller.holding = [] :=
      List.flatMap_eq_nil_iff.mpr fun c hc => by rw [hfresh c hc]; rfl
    simp only [start, Locks.start, hnone, List.map_nil, List.Perm.refl]
  · rw [hfresh c hc] at hwaiting
    exact nomatch hwaiting

theorem lookup_eq_some_of_mem {held : List (CacheKey × Nat)} (h : (held.map (·.1)).Nodup)
    {key : CacheKey} {latch : Nat} (hmem : (key, latch) ∈ held) : held.lookup key = some latch := by
  induction held with
  | nil => exact nomatch hmem
  | cons e held ih =>
    obtain ⟨hkey, hrest⟩ := List.nodup_cons.mp h
    rcases List.mem_cons.mp hmem with rfl | hmem
    · simp
    · have hne : key ≠ e.1 := by
        rintro rfl
        exact hkey (List.mem_map.mpr ⟨_, hmem, rfl⟩)
      rw [List.lookup_cons, beq_false_of_ne hne]
      exact ih hrest hmem

namespace Single

variable {s : Flight β} {c c' : Caller} {l' : Locks} {i : Nat}

theorem nodup_holding (h : s.Single) : (s.callers.flatMap Caller.holding).Nodup :=
  h.table.nodup_iff.mp h.nodup

/-- The locked keys after an act are again what the callers hold, none of them twice. -/
theorem table_moves (h : s.Single) (hc : s.callers[i]? = some c) (hmoves : Moves c s.locks c' l') :
    (l'.held.map (·.1)).Perm ((s.callers.set i c').flatMap Caller.holding) ∧
      (l'.held.map (·.1)).Nodup := by
  rcases hmoves.table with ⟨hheld, hholding⟩ | ⟨key, hfree, hheld, hholding⟩ |
    ⟨key, hheld, hholding, -⟩
  · have hcallers := perm_flatMap_set (x := []) (y := []) (f := Caller.holding) hc hholding
    rw [hheld]
    exact ⟨h.table.trans hcallers.symm, h.nodup⟩
  · have hcallers := perm_flatMap_set (x := []) (y := [key]) (f := Caller.holding) hc hholding
    have hkey : key ∉ s.locks.held.map (·.1) := by
      intro hmem
      obtain ⟨e, he, heq⟩ := List.mem_map.mp hmem
      have hne := List.lookup_eq_none_iff.mp hfree e he
      simp [heq] at hne
    rw [hheld]
    exact ⟨(h.table.cons key).trans hcallers.symm, List.nodup_cons.mpr ⟨hkey, h.nodup⟩⟩
  -- The key leaves the table, and none of the others holds it, as its caller held it before.
  · have hcallers := perm_flatMap_set (x := [key]) (y := []) (f := Caller.holding) hc hholding.symm
    have hkey : key ∉ (s.callers.set i c').flatMap Caller.holding :=
      (List.nodup_cons.mp (hcallers.nodup_iff.mpr h.nodup_holding)).1
    have hkeys : l'.held.map (·.1) = (s.locks.held.map (·.1)).filter (· != key) := by
      rw [hheld, List.filter_map]
      rfl
    rw [hkeys]
    refine ⟨?_, h.nodup.filter _⟩
    have hfiltered := (h.table.trans hcallers.symm).filter (· != key)
    have hothers : (key :: (s.callers.set i c').flatMap Caller.holding).filter (· != key) =
        (s.callers.set i c').flatMap Caller.holding := by
      rw [List.filter_cons_of_neg (by simp)]
      exact List.filter_eq_self.mpr fun k hk => by
        simpa using ne_of_mem_of_not_mem hk hkey
    exact hfiltered.trans (.of_eq hothers)

/-- A move leaves nobody waiting on a latch that nobody will open. -/
theorem waits_moves (h : s.Single) (hc : s.callers[i]? = some c) (hmoves : Moves c s.locks c' l') :
    ∀ w ∈ s.callers.set i c', ∀ key latch, w.stage = .waiting key latch →
      latch ∈ l'.opened ∨ (key, latch) ∈ l'.held ∨
        ∃ other ∈ s.callers.set i c', ∃ answer, other.stage = .opening latch answer := by
  intro w hw key latch hwaiting
  have hi : i < s.callers.length := (List.getElem?_eq_some_iff.mp hc).1
  have hmem : c' ∈ s.callers.set i c' := List.mem_set hi c'
  rcases List.mem_or_eq_of_mem_set hw with hw | rfl
  -- It waited before: the latch stays where it was, or leaves the table, or is opened.
  · rcases h.waits w hw key latch hwaiting with hopen | hheld | ⟨other, hother, answer, hopening⟩
    · exact .inl (hmoves.opened hopen)
    · rcases hmoves.table with ⟨heq, -⟩ | ⟨key', -, heq, -⟩ | ⟨key', heq, -, hlatch⟩
      · exact .inr (.inl (heq ▸ hheld))
      · exact .inr (.inl (heq ▸ List.mem_cons_of_mem _ hheld))
      · by_cases hkey : key = key'
        · subst hkey
          obtain ⟨answer, hopening⟩ := hlatch latch (lookup_eq_some_of_mem h.nodup hheld)
          exact .inr (.inr ⟨c', hmem, answer, hopening⟩)
        · refine .inr (.inl ?_)
          rw [heq]
          exact List.mem_filter.mpr ⟨hheld, by simpa using hkey⟩
    · obtain ⟨j, hj⟩ := List.getElem?_of_mem hother
      by_cases hji : j = i
      · subst hji
        obtain rfl : c = other := Option.some.inj (hc.symm.trans hj)
        exact .inl (hmoves.opens latch answer hopening)
      · have hstays : (s.callers.set i c')[j]? = some other := by
          rw [List.getElem?_set_ne (Ne.symm hji), hj]
        exact .inr (.inr ⟨other, List.mem_of_getElem? hstays, answer, hopening⟩)
  · exact .inr (.inl (hmoves.waits key latch hwaiting))

/-- Every event keeps a key locked just as long as one caller is past the lock or owes the key. -/
theorem step [Store β] (h : s.Single) (e : Event) : (s.step e).Single := by
  cases e with
  | clear => exact ⟨h.table, h.nodup, h.waits⟩
  | act i a =>
    unfold Flight.step
    dsimp only
    split
    · exact h
    · rename_i c hc
      split
      · exact h
      · rename_i c' l' inner' hact
        have hmoves := Caller.moves_act hact
        obtain ⟨htable, hnodup⟩ := h.table_moves hc hmoves
        exact ⟨htable, hnodup, h.waits_moves hc hmoves⟩

theorem run [Store β] (h : s.Single) (events : List Event) : (s.run events).Single := by
  unfold Flight.run
  -- On the events, for any state in which it holds.
  induction events generalizing s with
  | nil => exact h
  | cons e events ih => exact ih (h.step e)

end Single

/-- Single flight for each key, for any number of callers and whatever they do in whatever order:
the locked keys are those that some caller is getting past the lock, or has missed and not given
back; no two callers are there with one key, and none is there twice. And every caller that waits
does so on a latch that is open, or still in the table for its key; or, between the two steps of a
give-back, it is the latch that another caller has just taken out and opens by its next step. -/
theorem run_single_flight [Store β] (timeout : Option Duration) (inner : Cache β) (n : Nat)
    (events : List Event) :
    let s := (start timeout inner n).run events
    (∀ key, key ∈ s.locks.held.map (·.1) ↔ ∃ c ∈ s.callers, key ∈ c.holding) ∧
      (∀ (i j : Nat) (c c' : Caller) key, s.callers[i]? = some c → s.callers[j]? = some c' →
        key ∈ c.holding → key ∈ c'.holding → i = j) ∧
      (∀ c ∈ s.callers, c.holding.Nodup) ∧
      ∀ c ∈ s.callers, ∀ key latch, c.stage = .waiting key latch →
        latch ∈ s.locks.opened ∨ (key, latch) ∈ s.locks.held ∨
          ∃ other ∈ s.callers, ∃ answer, other.stage = .opening latch answer := by
  intro s
  have h : s.Single := (single_start timeout inner n).run events
  obtain ⟨hnodup, hapart⟩ := List.nodup_flatMap.mp h.nodup_holding
  refine ⟨fun key => ?_, fun i j c c' key hi hj hc hc' => ?_, hnodup, h.waits⟩
  · rw [h.table.mem_iff, List.mem_flatMap]
  · have hbefore {i j : Nat} {c c' : Caller} (hi : s.callers[i]? = some c)
        (hj : s.callers[j]? = some c') (hc : key ∈ c.holding) (hc' : key ∈ c'.holding) : ¬ i < j := by
      intro hij
      obtain ⟨hilt, rfl⟩ := List.getElem?_eq_some_iff.mp hi
      obtain ⟨hjlt, rfl⟩ := List.getElem?_eq_some_iff.mp hj
      exact List.pairwise_iff_getElem.mp hapart i j hilt hjlt hij hc hc'
    have hij := hbefore hi hj hc hc'
    have hji := hbefore hj hi hc' hc
    omega

/-- The key that the only loader was about to give back: its latch is out of the table and not open
yet, and the other caller still waits on it. -/
theorem waits_on_withdrawn_latch :
    let key : CacheKey := ⟨[.int 1]⟩
    let s := (start none (.store (MapStore.empty "users")) 2).run
      [.act 0 (.get key), .act 0 .proceed, .act 0 .proceed, .act 1 (.get key), .act 1 .proceed,
        .act 0 (.giveUp key), .act 0 .proceed]
    ∃ c ∈ s.callers, ∃ key latch, c.stage = .waiting key latch ∧
      latch ∉ s.locks.opened ∧ (key, latch) ∉ s.locks.held := by
  intro key s
  obtain ⟨hstage, hopened, hheld⟩ : s.callers[1]?.map Caller.stage = some (.waiting key 0) ∧
      s.locks.opened = [] ∧ s.locks.held = [] := by decide +kernel
  obtain ⟨c, hc, hwaiting⟩ := Option.map_eq_some_iff.mp hstage
  refine ⟨c, List.mem_of_getElem? hc, key, 0, hwaiting, ?_, ?_⟩
  · rw [hopened]
    exact List.not_mem_nil
  · rw [hheld]
    exact List.not_mem_nil

end Flight
end SqlMapper
