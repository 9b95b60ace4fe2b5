/-!
Paging of result rows in memory.
-/

namespace SqlMapper

structure RowBounds where
  offset : UInt64
  limit : UInt64
  deriving DecidableEq, Repr

namespace RowBounds

def all : RowBounds := ⟨0, 0xffffffffffffffff⟩

def isAll (b : RowBounds) : Bool := b == all

def apply {α : Type} (b : RowBounds) (rows : List α) : List α :=
  if b.isAll then rows else (rows.drop b.offset.toNat).take b.limit.toNat

end RowBounds
end SqlMapper
