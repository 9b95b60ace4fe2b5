import SqlMapper.Error
import SqlMapper.Expr.Parser

/-!
Evaluating a test expression. A tree takes the values of its paths from a function, so what it says
does not depend on where these values come from.
-/

namespace SqlMapper.Expr

/-- The order of two values, where they have one: numbers by size, texts by code points, false
before true. -/
def order? (left right : Value) : Option Ordering :=
  match left.number?, right.number? with
  | some x, some y => x.compare? y
  | _, _ =>
    match left, right with
    | .text s, .text t => some (compareOfLessAndEq s t)
    | .bool b, .bool c => some (compare b c)
    | _, _ => none

/-- Equality of two values: numbers by size, all else by shape and leaves. -/
def sameValue (left right : Value) : Bool :=
  match left.number?, right.number? with
  | some x, some y => x.same y
  | _, _ => left == right

def Comparison.allows : Comparison → Ordering → Bool
  | .eq, o => o == .eq
  | .ne, o => o != .eq
  | .lt, o => o == .lt
  | .le, o => o != .gt
  | .gt, o => o == .gt
  | .ge, o => o != .lt

/-- The result of a comparison, or nothing when the values have no order. Null is neither before nor
after anything. -/
def Comparison.apply? (c : Comparison) (left right : Value) : Option Bool :=
  match c with
  | .eq => some (sameValue left right)
  | .ne => some (!sameValue left right)
  | c =>
    if left.isNull || right.isNull then some false
    else (order? left right).map c.allows

structure Incomparable where
  left : Value
  right : Value

def Incomparable.message (i : Incomparable) : String :=
  s!"cannot compare {i.left.toText} with {i.right.toText}"

def Tree.eval (valueAt : String → Value) : Tree → Except Incomparable Value
  | .literal v => .ok v
  | .path p => .ok (valueAt p)
  | .not e => do
    let v ← e.eval valueAt
    return .bool (!v.truthy)
  | .and left right => do
    let l ← left.eval valueAt
    if l.truthy then
      let r ← right.eval valueAt
      return .bool r.truthy
    else return .bool false
  | .or left right => do
    let l ← left.eval valueAt
    if l.truthy then return .bool true
    else
      let r ← right.eval valueAt
      return .bool r.truthy
  | .compare left c right => do
    let l ← left.eval valueAt
    let r ← right.eval valueAt
    match c.apply? l r with
    | some b => return .bool b
    | none => throw ⟨l, r⟩

end SqlMapper.Expr

namespace SqlMapper

structure Test where
  source : String
  tree : Expr.Tree

namespace Test

def parse (source : String) : Except Error Test :=
  match Expr.parse source with
  | .ok tree => .ok ⟨source, tree⟩
  | .error f => .error (.expression source f.message)

def value (t : Test) (valueAt : String → Value) : Except Error Value :=
  match t.tree.eval valueAt with
  | .ok v => .ok v
  | .error i => .error (.expression t.source i.message)

def holds (t : Test) (valueAt : String → Value) : Except Error Bool :=
  (t.value valueAt).map Value.truthy

end Test
end SqlMapper
