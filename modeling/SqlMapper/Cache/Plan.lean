import SqlMapper.Cache.Layers

/-!
Plans for caches: which layers go around a store, and with which bounds. Every planned cache is
bounded; the counted and the guarded layer are optional, in this order from the inside.
-/

namespace SqlMapper

structure CachePlan where
  id : String
  /-- How many keys are kept; without it, 1024. -/
  size : Option Nat
  counted : Bool
  guarded : Bool
  timeout : Option Duration
  deriving DecidableEq, Repr

namespace CachePlan

def standard (id : String) : CachePlan := ⟨id, none, true, false, none⟩

def withTimeout (d : Duration) (p : CachePlan) : CachePlan :=
  { p with guarded := true, timeout := some d }

def recency (p : CachePlan) : Except Error (Recency CacheKey) :=
  match p.size with
  | some size => Recency.ofSize size
  | none => .ok Recency.standard

def surround {β : Type} (p : CachePlan) (c : Cache β) : Cache β :=
  let c := if p.counted then .counted ⟨0, 0⟩ c else c
  if p.guarded then .guarded (Locks.start p.timeout) c else c

def build {β : Type} [Store β] (p : CachePlan) (base : β) : Except Error (Cache β) :=
  if Store.id base ≠ p.id then
    .error (.config s!"cache implementation id '{Store.id base}' does not match '{p.id}'")
  else p.recency.map fun r => p.surround (.bounded r (.store base))

/-- What is built is the bounded layer over the store, with the other layers of the plan. -/
theorem eq_surround_of_build {β : Type} [Store β] {p : CachePlan} {base : β} {c : Cache β}
    (h : p.build base = .ok c) :
    ∃ r, p.recency = .ok r ∧ c = p.surround (.bounded r (.store base)) := by
  unfold build at h
  split at h
  · exact nomatch h
  · cases hrecency : p.recency with
    | error e =>
      rw [hrecency] at h
      exact nomatch h
    | ok r =>
      rw [hrecency] at h
      exact ⟨r, rfl, (Except.ok.inj h).symm⟩

def buildInMemory (p : CachePlan) : Except Error (Cache MapStore) :=
  p.build (MapStore.empty p.id)

end CachePlan
end SqlMapper
