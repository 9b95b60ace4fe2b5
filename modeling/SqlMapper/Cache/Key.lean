import SqlMapper.Value.Basic

/-!
Cache keys: what was asked, as a list of components. While a key is built, two digests are counted
up; as these depend on the components alone, two keys are equal exactly when their components are.
-/

namespace SqlMapper

structure RunningKey where
  digest : UInt64
  checksum : UInt64
  count : UInt64
  components : List Value
  deriving DecidableEq

namespace RunningKey

def empty : RunningKey := ⟨17, 0, 0, []⟩

/-- The key with one more component, which counts by its hash in both digests, and in one of them as
often as its place says. -/
def update (hash : Value → UInt64) (k : RunningKey) (v : Value) : RunningKey where
  digest := 37 * k.digest + (k.count + 1) * hash v
  checksum := k.checksum + hash v
  count := k.count + 1
  components := k.components ++ [v]

def ofComponents (hash : Value → UInt64) (vs : List Value) : RunningKey :=
  vs.foldl (update hash) empty

theorem components_foldl_update (hash : Value → UInt64) (vs : List Value) (k : RunningKey) :
    (vs.foldl (update hash) k).components = k.components ++ vs := by
  induction vs generalizing k with
  | nil => exact (List.append_nil _).symm
  | cons v vs ih =>
    rw [List.foldl_cons, ih]
    simp [update]

theorem components_ofComponents (hash : Value → UInt64) (vs : List Value) :
    (ofComponents hash vs).components = vs :=
  components_foldl_update hash vs empty

/-- Keys are equal with all that is counted up exactly when their components are. -/
theorem ofComponents_inj {hash : Value → UInt64} {vs ws : List Value} :
    ofComponents hash vs = ofComponents hash ws ↔ vs = ws := by
  constructor
  · intro h
    calc vs = (ofComponents hash vs).components := (components_ofComponents hash vs).symm
      _ = (ofComponents hash ws).components := congrArg components h
      _ = ws := components_ofComponents hash ws
  · exact congrArg (ofComponents hash)

end RunningKey

structure CacheKey where
  components : List Value
  deriving DecidableEq

namespace CacheKey

def push (key : CacheKey) (v : Value) : CacheKey := ⟨key.components ++ [v]⟩

def size (key : CacheKey) : Nat := key.components.length

def running (key : CacheKey) : RunningKey := .ofComponents hash key.components

def toText (key : CacheKey) : String :=
  ":".intercalate
    (toString key.running.digest :: toString key.running.checksum ::
      key.components.map Value.toText)

end CacheKey
end SqlMapper
