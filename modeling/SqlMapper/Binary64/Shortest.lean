import SqlMapper.Binary64.Basic

/-!
The shortest decimal that reads back as a given double precision number: for one digit up to
seventeen, the two decimals next to the number are tried, and the first length with a hit wins.
-/

namespace SqlMapper.Binary64

structure Decimal where
  digits : Nat
  exponent : Int
  deriving DecidableEq, Repr

def decimalLength (n : Nat) : Nat :=
  (Nat.toDigits 10 n).length

structure Rounding where
  low : Nat
  value : Nat
  high : Nat
  closed : Bool

/-- The rounding interval of a positive finite number. The gap below a power of two is half the gap
above it. -/
def rounding (x : Binary64) : Rounding :=
  let m := x.significand
  let below := if m = Nat.pow 2 52 then 1 else 2
  let unit := Nat.pow 2 x.scale
  ⟨(4 * m - below) * unit, 4 * m * unit, (4 * m + 2) * unit, m % 2 == 0⟩

def leadingPlace (r : Rounding) : Int :=
  (decimalLength (r.value * Nat.pow 10 400 / Nat.pow 2 1076) : Int) - 400

/-- A decimal of the form `d * 10 ^ e` with a digit taken away when `d` is a power of ten, so that
no trailing zero is left. -/
def Decimal.ofLength (length d : Nat) (e : Int) : Decimal :=
  if d = Nat.pow 10 length then ⟨1, e + length⟩ else ⟨d, e⟩

def nearestOfLength? (r : Rounding) (length : Nat) : Option Decimal :=
  let e := leadingPlace r - length
  let up := Nat.pow 10 (-e).toNat
  let unit := Nat.pow 2 1076 * Nat.pow 10 e.toNat
  let d := r.value * up / unit
  let hitDown :=
    if r.closed then decide (r.low * up ≤ d * unit)
    else decide (r.low * up < d * unit)
  let hitUp :=
    if r.closed then decide ((d + 1) * unit ≤ r.high * up)
    else decide ((d + 1) * unit < r.high * up)
  let nearerDown := 2 * (r.value * up - d * unit) < unit
  if hitDown && (!hitUp || nearerDown) then some (.ofLength length d e)
  else if hitUp then some (.ofLength length (d + 1) e)
  else none

/-- The shortest decimal that reads back as a positive finite number. Seventeen digits always do,
so the last value is never used. -/
def shortest (x : Binary64) : Decimal :=
  ((List.range 17).findSome? fun i => nearestOfLength? x.rounding (i + 1)).getD ⟨0, 0⟩

def Decimal.chars (d : Decimal) : List Char :=
  Nat.toDigits 10 d.digits

def Decimal.positional (d : Decimal) : List Char :=
  let cs := d.chars
  let point := (cs.length : Int) + d.exponent
  if 0 ≤ d.exponent then cs ++ List.replicate d.exponent.toNat '0'
  else if 0 < point then cs.take point.toNat ++ '.' :: cs.drop point.toNat
  else '0' :: '.' :: List.replicate (-point).toNat '0' ++ cs

def Decimal.scientific (d : Decimal) : List Char :=
  let power := (d.chars.length : Int) - 1 + d.exponent
  let mantissa :=
    match d.chars with
    | [] => []
    | [c] => [c]
    | c :: cs => c :: '.' :: cs
  mantissa ++ 'e' :: (toString power).toList

def textWith (zero : List Char) (write : Decimal → List Char) (x : Binary64) : String :=
  let sign := if x.isNegative then ['-'] else []
  if x.isNaN then "NaN"
  else if x.isInfinite then String.ofList (sign ++ ['i', 'n', 'f'])
  else if x.isZero then String.ofList (sign ++ zero)
  else String.ofList (sign ++ write x.shortest)

def toText (x : Binary64) : String :=
  x.textWith ['0'] Decimal.positional

/-- The text of a number among expression tokens: at least one place after the point, and a power
of ten below `10 ^ -4` and from `10 ^ 16` on. -/
def toLiteral (x : Binary64) : String :=
  x.textWith ['0', '.', '0'] fun d =>
    let point := (d.chars.length : Int) + d.exponent
    if point < -3 ∨ 16 < point then d.scientific
    else if 0 ≤ d.exponent then d.positional ++ ['.', '0']
    else d.positional

end SqlMapper.Binary64
