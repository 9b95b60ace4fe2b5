/-!
Reading whole numbers: a run of ASCII digits, with a sign before it where the number type has one. A
number outside the bounds of its type is no number of that type.
-/

namespace SqlMapper.Text

def isDigit (c : Char) : Bool :=
  decide ('0' ≤ c ∧ c ≤ '9')

def digitsValue (cs : List Char) : Nat :=
  cs.foldl (fun n c => 10 * n + (c.toNat - '0'.toNat)) 0

def numeral? (cs : List Char) : Option Nat :=
  if cs ≠ [] ∧ cs.all isDigit then some (digitsValue cs) else none

def dropPlus : List Char → List Char
  | '+' :: cs => cs
  | cs => cs

def natBelow? (bound : Nat) (s : String) : Option Nat :=
  (numeral? (dropPlus s.toList)).filter (fun n => decide (n < bound))

def intWithin? (bound : Nat) (s : String) : Option Int :=
  match s.toList with
  | '-' :: cs => ((numeral? cs).filter (fun n => decide (n ≤ bound))).map (fun n => -(n : Int))
  | cs => ((numeral? (dropPlus cs)).filter (fun n => decide (n < bound))).map (fun n => (n : Int))

def uint64? (s : String) : Option UInt64 :=
  (natBelow? (Nat.pow 2 64) s).map UInt64.ofNat

end SqlMapper.Text
