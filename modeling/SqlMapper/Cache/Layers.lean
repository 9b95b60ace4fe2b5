import SqlMapper.Binary64.Basic
import SqlMapper.Cache.Locks
import SqlMapper.Cache.Recency
import SqlMapper.Cache.Store

/-!
Caches: a store with layers around it. The operations are those of one client while no other one is
active; such a client may wait for a key that nobody gives back, and then the result is `none`.
-/

namespace SqlMapper

structure Tally where
  requests : Nat
  hits : Nat
  deriving DecidableEq, Repr

def Tally.ratio (t : Tally) : Binary64 :=
  if t.requests = 0 then .ofInt 0 else .ofRatio false t.hits t.requests

inductive Cache (β : Type) where
  | store (backing : β)
  | bounded (recency : Recency CacheKey) (inner : Cache β)
  | counted (tally : Tally) (inner : Cache β)
  | guarded (locks : Locks) (inner : Cache β)

namespace Cache

variable {β : Type} [Store β]

abbrev Outcome (β α : Type) := Except Error α × Cache β

def thenState {α σ τ : Type} (f : σ → τ) (x : α × σ) : α × τ := (x.1, f x.2)

def id : Cache β → String
  | .store b => Store.id b
  | .bounded _ c | .counted _ c | .guarded _ c => c.id

def size : Cache β → Nat
  | .store b => Store.size b
  | .bounded _ c | .counted _ c | .guarded _ c => c.size

def clear : Cache β → Cache β
  | .store b => .store (Store.clear b)
  | .bounded r c => .bounded r.clear c.clear
  | .counted t c => .counted t c.clear
  | .guarded l c => .guarded l c.clear

/-- Gives a key back without a value. Only a guarded layer, or the store, holds anything. -/
def release (key : CacheKey) : Cache β → Outcome β Unit
  | .store b => thenState .store (Store.release key b)
  | .bounded r c => thenState (.bounded r) (c.release key)
  | .counted t c => thenState (.counted t) (c.release key)
  | .guarded l c => thenState (.guarded · c) (l.release key)

/-- Takes the entry of a key out. Under a guarded layer this gives the key back instead. -/
def remove (key : CacheKey) : Cache β → Outcome β (Option Value)
  | .store b => thenState .store (Store.remove key b)
  | .bounded r c => thenState (.bounded (r.forget key)) (c.remove key)
  | .counted t c => thenState (.counted t) (c.remove key)
  | .guarded l c => (l.release key).map (·.map fun _ => none) (.guarded · c)

/-- Stores a value. A bounded layer then takes out the key that had to go for this one. A guarded
layer gives the key back, whether the value could be stored or not. -/
def put (key : CacheKey) (v : Value) : Cache β → Outcome β Unit
  | .store b => thenState .store (Store.put key v b)
  | .bounded r c =>
    match c.put key v with
    | (.error e, c) => (.error e, .bounded r c)
    | (.ok (), c) =>
      match r.push key with
      | (none, r) => (.ok (), .bounded r c)
      | (some eldest, r) =>
        match c.remove eldest with
        | (.error e, c) => (.error e, .bounded r c)
        | (.ok _, c) => (.ok (), .bounded r c)
  | .counted t c => thenState (.counted t) (c.put key v)
  | .guarded l c =>
    match c.put key v with
    | (stored, c) =>
      match l.release key with
      | (released, l) => (stored.bind fun _ => released, .guarded l c)

/-- Asks for the value of a key. A guarded layer locks the key first and keeps it locked only when
nothing was found. -/
def get (key : CacheKey) : Cache β → Option (Outcome β (Option Value))
  | .store b => some (thenState .store (Store.get key b))
  | .bounded r c => (c.get key).map (thenState (.bounded (r.touch key)))
  | .counted t c =>
    (c.get key).map fun (found, c) =>
      let hit := match found with
        | .ok (some _) => 1
        | _ => 0
      (found, .counted ⟨t.requests + 1, t.hits + hit⟩ c)
  | .guarded l c =>
    match l.claim key with
    | (.busy _, l) =>
      if l.bounded then some (.error (l.timedOut key c.id), .guarded l c) else none
    | (.taken, l) =>
      (c.get key).map fun (found, c) =>
        match found with
        | .ok none => (.ok none, .guarded l c)
        | .ok (some v) =>
          match l.release key with
          | (.ok (), l) => (.ok (some v), .guarded l c)
          | (.error e, l) => (.error e, .guarded l c)
        | .error e => (.error e, .guarded (l.release key).2 c)

def resize (size : Nat) : Cache β → Outcome β Unit
  | .bounded r c =>
    match Recency.ofSize size with
    | .ok r => (.ok (), .bounded r c)
    | .error e => (.error e, .bounded r c)
  | c => (.ok (), c)

def layers : Cache β → List (Cache β)
  | .store b => [.store b]
  | .bounded r c => c.layers ++ [.bounded r c]
  | .counted t c => c.layers ++ [.counted t c]
  | .guarded l c => c.layers ++ [.guarded l c]

def changeStore (f : β → β) : Cache β → Cache β
  | .store b => .store (f b)
  | .bounded r c => .bounded r (c.changeStore f)
  | .counted t c => .counted t (c.changeStore f)
  | .guarded l c => .guarded l (c.changeStore f)

def depth : Cache β → Nat
  | .store _ => 0
  | .bounded _ c | .counted _ c | .guarded _ c => c.depth + 1

def atLevel {α : Type} (level : Nat) (f : Cache β → α × Cache β) (c : Cache β) :
    α × Cache β :=
  if c.depth ≤ level then f c
  else
    match c with
    | .store b => f (.store b)
    | .bounded r c => thenState (.bounded r) (atLevel level f c)
    | .counted t c => thenState (.counted t) (atLevel level f c)
    | .guarded l c => thenState (.guarded l) (atLevel level f c)

end Cache
end SqlMapper
