import SqlMapper.Text.Numeral
import SqlMapper.Text.Split
import SqlMapper.Value.Basic

/-!
Dotted paths into values. The segment `size` is the number of entries of a map without such a key,
of items of a list, or of characters of a text; empty segments are passed over.
-/

namespace SqlMapper

namespace Value

def segments (path : String) : List String :=
  ((Text.split '.' path.toList).filter (· ≠ [])).map String.ofList

def step? (v : Value) (segment : String) : Option Value :=
  match v with
  | .map entries =>
    match entries.lookup segment with
    | some w => some w
    | none => if segment = "size" then some (.int (.ofNat entries.length)) else none
  | .list items =>
    if segment = "size" then some (.int (.ofNat items.length))
    else (Text.uint64? segment).bind fun i => items[i.toNat]?
  | .text s => if segment = "size" then some (.int (.ofNat s.length)) else none
  | _ => none

def lookup? (v : Value) (path : String) : Option Value :=
  (segments path).foldlM step? v

def get? (v : Value) (key : String) : Option Value :=
  match v with
  | .map entries => entries.lookup key
  | _ => none

end Value
end SqlMapper
