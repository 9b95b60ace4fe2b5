import SqlMapper.Cache.Key
import SqlMapper.Error

/-!
Stores: where cached values are kept. A store may fail at any call; the state after the call is
given in either case. `MapStore` keeps everything it is given and never fails.
-/

namespace SqlMapper

class Store (β : Type) where
  id : β → String
  get : CacheKey → β → Except Error (Option Value) × β
  put : CacheKey → Value → β → Except Error Unit × β
  remove : CacheKey → β → Except Error (Option Value) × β
  /-- Gives up what a `get` without a result may hold. -/
  release : CacheKey → β → Except Error Unit × β
  clear : β → β
  size : β → Nat

structure MapStore where
  id : String
  entries : List (CacheKey × Value)

namespace MapStore

def empty (id : String) : MapStore := ⟨id, []⟩

def get? (key : CacheKey) (s : MapStore) : Option Value :=
  s.entries.lookup key

def erase (key : CacheKey) (s : MapStore) : MapStore :=
  { s with entries := s.entries.filter (fun e => e.1 != key) }

def insert (key : CacheKey) (v : Value) (s : MapStore) : MapStore :=
  { s with entries := (key, v) :: (s.erase key).entries }

instance : Store MapStore where
  id := MapStore.id
  get key s := (.ok (s.get? key), s)
  put key v s := (.ok (), s.insert key v)
  remove key s := (.ok (s.get? key), s.erase key)
  release _ s := (.ok (), s)
  clear s := { s with entries := [] }
  size s := s.entries.length

end MapStore
end SqlMapper
