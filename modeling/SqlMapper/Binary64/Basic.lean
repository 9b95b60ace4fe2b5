/-!
Double precision numbers as their 64 bits. Every finite one is a whole number of units of `2 ^
-1074`, so values, comparison and rounding are all stated in whole numbers.
-/

namespace SqlMapper

/-- A double precision number, kept as its bit pattern: sign, 11 bits of exponent, 52 bits of
fraction. Two of them are equal when their bits are. -/
structure Binary64 where
  bits : UInt64
  deriving DecidableEq, Hashable, Inhabited, Repr

namespace Binary64

def isNegative (x : Binary64) : Bool :=
  decide (Nat.pow 2 63 ≤ x.bits.toNat)

def magnitude (x : Binary64) : Nat :=
  x.bits.toNat % Nat.pow 2 63

def infiniteMagnitude : Nat := 2047 * Nat.pow 2 52

def isNaN (x : Binary64) : Bool :=
  decide (infiniteMagnitude < x.magnitude)

def isInfinite (x : Binary64) : Bool :=
  x.magnitude == infiniteMagnitude

def isZero (x : Binary64) : Bool :=
  x.magnitude == 0

def ofMagnitude (negative : Bool) (magnitude : Nat) : Binary64 :=
  ⟨UInt64.ofNat (magnitude + if negative then Nat.pow 2 63 else 0)⟩

def neg (x : Binary64) : Binary64 :=
  ofMagnitude (!x.isNegative) x.magnitude

def scale (x : Binary64) : Nat :=
  x.magnitude / Nat.pow 2 52 - 1

def significand (x : Binary64) : Nat :=
  if x.magnitude < Nat.pow 2 52 then x.magnitude else Nat.pow 2 52 + x.magnitude % Nat.pow 2 52

/-- The place of a number in the numeric order, where both zeros stand together. -/
def rank (x : Binary64) : Int :=
  if x.isNegative then -(x.magnitude : Int) else x.magnitude

/-- The numeric comparison, which a pair with something that is no number does not have. -/
def compare? (x y : Binary64) : Option Ordering :=
  if x.isNaN || y.isNaN then none else some (compare x.rank y.rank)

def same (x y : Binary64) : Bool :=
  x.compare? y == some .eq

def roundHalfEven (n d : Nat) : Nat :=
  let q := n / d
  if 2 * (n % d) < d then q
  else if d < 2 * (n % d) then q + 1
  else q + q % 2

/-- The magnitude nearest to `n / d`. The scale is chosen so that the significand has 53 bits, or
is 0 for the numbers below `2 ^ 53` units; a significand that rounds up to 54 bits carries into the
exponent field by itself. -/
def nearestMagnitude (n d : Nat) : Nat :=
  let units := n * Nat.pow 2 1074
  let s := (units / d).log2 - 52
  min (s * Nat.pow 2 52 + roundHalfEven units (d * Nat.pow 2 s)) infiniteMagnitude

def ofRatio (negative : Bool) (n d : Nat) : Binary64 :=
  ofMagnitude negative (nearestMagnitude n d)

def ofInt (i : Int) : Binary64 :=
  ofRatio (decide (i < 0)) i.natAbs 1

end Binary64
end SqlMapper
