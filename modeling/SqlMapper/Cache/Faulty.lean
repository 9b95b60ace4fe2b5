import SqlMapper.Cache.Store

/-!
A store in memory whose operations can be made to fail before they do anything.
-/

namespace SqlMapper

inductive StoreOp where
  | get
  | put
  | remove
  | release
  deriving DecidableEq, Repr

def StoreOp.name : StoreOp → String
  | .get => "get"
  | .put => "put"
  | .remove => "remove"
  | .release => "release"

structure FaultyStore where
  inner : MapStore
  fails : StoreOp → Bool

namespace FaultyStore

def empty (id : String) : FaultyStore := ⟨.empty id, fun _ => false⟩

def attempt {α : Type} (op : StoreOp) (run : MapStore → Except Error α × MapStore)
    (s : FaultyStore) : Except Error α × FaultyStore :=
  if s.fails op then (.error (.connection ("injected " ++ op.name)), s)
  else
    let (r, inner) := run s.inner
    (r, { s with inner := inner })

instance : Store FaultyStore where
  id s := s.inner.id
  get key := attempt .get (Store.get key)
  put key v := attempt .put (Store.put key v)
  remove key := attempt .remove (Store.remove key)
  release key := attempt .release (Store.release key)
  clear s := { s with inner := Store.clear s.inner }
  size s := Store.size s.inner

end FaultyStore
end SqlMapper
