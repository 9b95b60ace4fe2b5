import SqlMapper.Binary64.Shortest
import SqlMapper.Entries

/-!
Values: what parameters, bindings, cached results and result rows are made of. Two values are equal
when they have the same shape and the same leaves, numbers with a fraction by their bits.
-/

namespace SqlMapper

/-- A value of a parameter object or of a result. The entries of a map are in increasing order of
their keys. -/
inductive Value where
  | null
  | bool (b : Bool)
  | int (i : Int64)
  | float (x : Binary64)
  | text (s : String)
  | bytes (bs : List UInt8)
  | list (items : List Value)
  | map (entries : List (String × Value))
  deriving Inhabited, Hashable

abbrev Row := Entries Value

namespace Value

def decEq : (a b : Value) → Decidable (a = b)
  | .null, .null => isTrue rfl
  | .bool a, .bool b => decidable_of_iff (a = b) (Value.bool.injEq a b ▸ Iff.rfl)
  | .int a, .int b => decidable_of_iff (a = b) (Value.int.injEq a b ▸ Iff.rfl)
  | .float a, .float b => decidable_of_iff (a = b) (Value.float.injEq a b ▸ Iff.rfl)
  | .text a, .text b => decidable_of_iff (a = b) (Value.text.injEq a b ▸ Iff.rfl)
  | .bytes a, .bytes b => decidable_of_iff (a = b) (Value.bytes.injEq a b ▸ Iff.rfl)
  | .list a, .list b =>
    match decEqList a b with
    | isTrue h => isTrue (by rw [h])
    | isFalse h => isFalse fun e => h (Value.list.inj e)
  | .map a, .map b =>
    match decEqEntries a b with
    | isTrue h => isTrue (by rw [h])
    | isFalse h => isFalse fun e => h (Value.map.inj e)
  | .null, .bool _ | .null, .int _ | .null, .float _ | .null, .text _ | .null, .bytes _
  | .null, .list _ | .null, .map _ => isFalse nofun
  | .bool _, .null | .bool _, .int _ | .bool _, .float _ | .bool _, .text _ | .bool _, .bytes _
  | .bool _, .list _ | .bool _, .map _ => isFalse nofun
  | .int _, .null | .int _, .bool _ | .int _, .float _ | .int _, .text _ | .int _, .bytes _
  | .int _, .list _ | .int _, .map _ => isFalse nofun
  | .float _, .null | .float _, .bool _ | .float _, .int _ | .float _, .text _
  | .float _, .bytes _ | .float _, .list _ | .float _, .map _ => isFalse nofun
  | .text _, .null | .text _, .bool _ | .text _, .int _ | .text _, .float _ | .text _, .bytes _
  | .text _, .list _ | .text _, .map _ => isFalse nofun
  | .bytes _, .null | .bytes _, .bool _ | .bytes _, .int _ | .bytes _, .float _
  | .bytes _, .text _ | .bytes _, .list _ | .bytes _, .map _ => isFalse nofun
  | .list _, .null | .list _, .bool _ | .list _, .int _ | .list _, .float _ | .list _, .text _
  | .list _, .bytes _ | .list _, .map _ => isFalse nofun
  | .map _, .null | .map _, .bool _ | .map _, .int _ | .map _, .float _ | .map _, .text _
  | .map _, .bytes _ | .map _, .list _ => isFalse nofun
where
  decEqList : (as bs : List Value) → Decidable (as = bs)
    | [], [] => isTrue rfl
    | [], _ :: _ => isFalse nofun
    | _ :: _, [] => isFalse nofun
    | a :: as, b :: bs =>
      match decEq a b, decEqList as bs with
      | isTrue h, isTrue hs => isTrue (by rw [h, hs])
      | isFalse h, _ => isFalse fun e => h (List.cons.inj e).1
      | _, isFalse hs => isFalse fun e => hs (List.cons.inj e).2
  decEqEntries : (as bs : List (String × Value)) → Decidable (as = bs)
    | [], [] => isTrue rfl
    | [], _ :: _ => isFalse nofun
    | _ :: _, [] => isFalse nofun
    | (k, a) :: as, (l, b) :: bs =>
      match decEq a b, decEqEntries as bs with
      | isTrue h, isTrue hs =>
        if hk : k = l then isTrue (by rw [h, hs, hk])
        else isFalse fun e => hk (Prod.mk.inj (List.cons.inj e).1).1
      | isFalse h, _ => isFalse fun e => h (Prod.mk.inj (List.cons.inj e).1).2
      | _, isFalse hs => isFalse fun e => hs (List.cons.inj e).2

instance : DecidableEq Value := decEq

def ofPairs (pairs : List (String × Value)) : Value :=
  .map (Entries.ofList pairs)

/-- The signed value of an unsigned number of 64 bits, wrapping around above the greatest signed
one. -/
def ofUInt64 (n : UInt64) : Value :=
  .int n.toInt64

def isNull : Value → Bool
  | .null => true
  | _ => false

/-- Whether a value holds as a condition: null, false, zero and the empty text do not. -/
def truthy : Value → Bool
  | .null => false
  | .bool b => b
  | .int i => i != 0
  | .float x => !x.isZero
  | .text s => s != ""
  | .bytes _ | .list _ | .map _ => true

def number? : Value → Option Binary64
  | .int i => some (.ofInt i.toInt)
  | .float x => some x
  | _ => none

def items? : Value → Option (List Value)
  | .list items => some items
  | _ => none

def text? : Value → Option String
  | .text s => some s
  | _ => none

def toText : Value → String
  | .null => "null"
  | .bool b => if b then "true" else "false"
  | .int i => toString i.toInt
  | .float x => x.toText
  | .text s => s
  | .bytes bs => "<" ++ toString bs.length ++ " bytes>"
  | .list items => "[" ++ ", ".intercalate (itemTexts items) ++ "]"
  | .map entries => "\x7b" ++ ", ".intercalate (entryTexts entries) ++ "\x7d"
where
  itemTexts : List Value → List String
    | [] => []
    | v :: vs => toText v :: itemTexts vs
  entryTexts : List (String × Value) → List String
    | [] => []
    | (k, v) :: es => (k ++ "=" ++ toText v) :: entryTexts es

def ofRows (rows : List Row) : Value :=
  .list (rows.map .map)

/-- The rows packed into a value; what is not a map among the items is left out. -/
def toRows : Value → List Row
  | .list items =>
    items.filterMap fun
      | .map entries => some entries
      | _ => none
  | _ => []

/-- Packing rows loses nothing. -/
theorem toRows_ofRows (rows : List Row) : (ofRows rows).toRows = rows := by
  induction rows with
  | nil => rfl
  | cons row rows ih => simpa [ofRows, toRows] using ih

end Value
end SqlMapper
