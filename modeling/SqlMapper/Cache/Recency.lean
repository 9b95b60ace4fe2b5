import SqlMapper.Error

/-!
A bounded list of keys in the order of their last use. It only tells which key has to go when a new
one comes and there is no room; what the keys stand for is kept elsewhere.
-/

namespace SqlMapper

structure Recency (κ : Type) where
  capacity : Nat
  keys : List κ
  positive : 0 < capacity

namespace Recency

variable {κ : Type} [DecidableEq κ]

def standard : Recency κ := ⟨1024, [], by decide⟩

def ofSize (size : Nat) : Except Error (Recency κ) :=
  if h : 0 < size then .ok ⟨size, [], h⟩
  else .error (.config "LRU cache size must be > 0")

def touch (key : κ) (r : Recency κ) : Recency κ :=
  if key ∈ r.keys then { r with keys := key :: r.keys.erase key } else r

/-- The list after a key came in or was used again, and the key that had to go for it: with no room
left, the one whose last use is the longest ago. -/
def push (key : κ) (r : Recency κ) : Option κ × Recency κ :=
  if key ∈ r.keys then (none, { r with keys := key :: r.keys.erase key })
  else if r.keys.length < r.capacity then (none, { r with keys := key :: r.keys })
  else (r.keys.getLast?, { r with keys := key :: r.keys.dropLast })

def forget (key : κ) (r : Recency κ) : Recency κ :=
  { r with keys := r.keys.erase key }

def clear (r : Recency κ) : Recency κ :=
  { r with keys := [] }

def size (r : Recency κ) : Nat := r.keys.length

end Recency
end SqlMapper
