import SqlMapper.Text.Blank
import SqlMapper.Text.Case
import SqlMapper.Text.Split

/-!
Trimming a rendered part: cutting one override off each end, the longest first and without regard to
the case of ASCII letters, and putting an opening and a closing text around what is left.
-/

namespace SqlMapper

open Text

/-- What is done at the ends of a rendered part. The overrides are in upper case, the longest
first. -/
structure Trim where
  opening : Option String
  openingOverrides : List String
  closing : Option String
  closingOverrides : List String
  deriving DecidableEq, Repr

namespace Trim

/-- Overrides in upper case and in the order in which they are tried: the longest in bytes first,
equally long ones as they were given. -/
def arrange (overrides : List String) : List String :=
  (overrides.map fun o => String.ofList (upper o.toList)).mergeSort
    fun a b => decide (b.utf8ByteSize ≤ a.utf8ByteSize)

def overridesOf (written : Option String) : List String :=
  match written with
  | none => []
  | some s => ((split '|' s.toList).filter (· ≠ [])).map String.ofList

def ofWritten (opening openingOverrides closing closingOverrides : Option String) : Trim where
  opening := opening
  openingOverrides := arrange (overridesOf openingOverrides)
  closing := closing
  closingOverrides := arrange (overridesOf closingOverrides)

def whereClause : Trim where
  opening := some "WHERE"
  openingOverrides := arrange
    ["AND ", "OR ", "AND\n", "OR\n", "AND\r", "OR\r", "AND\t", "OR\t"]
  closing := none
  closingOverrides := []

def setClause : Trim where
  opening := some "SET"
  openingOverrides := []
  closing := none
  closingOverrides := arrange [","]

def cutStart (t : Trim) (part : List Char) : List Char :=
  match t.openingOverrides.find? fun o => o.toList.isPrefixOf (upper part) with
  | some o => dropBlanks (part.drop o.length)
  | none => part

def addOpening (t : Trim) (part : List Char) : List Char :=
  match t.opening with
  | some s => s.toList ++ ' ' :: part
  | none => part

/-- How much of the end of a part an override covers: all of itself, or all but the blanks at its
ends. -/
def covered? (part : List Char) (override : List Char) : Option Nat :=
  if override.isSuffixOf (upper part) then some override.length
  else if trimChars override ≠ [] ∧ (trimChars override).isSuffixOf (upper part) then
    some (trimChars override).length
  else none

def cutEnd (t : Trim) (part : List Char) : List Char :=
  match t.closingOverrides.findSome? fun o => covered? part o.toList with
  | some n => dropBlanksEnd (part.take (part.length - n))
  | none => part

def addClosing (t : Trim) (part : List Char) : List Char :=
  match t.closing with
  | some s => part ++ ' ' :: s.toList
  | none => part

/-- A trimmed part. The end is looked at when the opening text is already there. -/
def applyChars (t : Trim) (part : List Char) : List Char :=
  match trimChars part with
  | [] => []
  | cs => t.addClosing (t.cutEnd (t.addOpening (t.cutStart cs)))

def apply (t : Trim) (part : String) : String :=
  .ofList (t.applyChars part.toList)

end Trim
end SqlMapper
