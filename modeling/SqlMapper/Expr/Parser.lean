import SqlMapper.Expr.Token

/-!
Reading a tree from the tokens of a test expression. Every function takes at least one token off the
front: the measure is the number of tokens left, and among functions that have taken none the
tighter one is the smaller.
-/

namespace SqlMapper.Expr

/-- A tree read off the front of `ts`, and the tokens after it, which are fewer. -/
abbrev Reading (ts : List Token) : Type :=
  Except Fault (Tree × { rest : List Token // rest.length < ts.length })

def nameTree (s : String) : Tree :=
  match s with
  | "null" => .literal .null
  | "true" => .literal (.bool true)
  | "false" => .literal (.bool false)
  | _ => .path s

mutual

def readOr (ts : List Token) : Reading ts :=
  match readAnd ts with
  | .error f => .error f
  | .ok (left, ⟨rest, h⟩) =>
    match readOrTail left rest with
    | .error f => .error f
    | .ok (e, ⟨r, hr⟩) => .ok (e, ⟨r, by omega⟩)
termination_by (ts.length, 4)

def readOrTail (left : Tree) (ts : List Token) :
    Except Fault (Tree × { rest : List Token // rest.length ≤ ts.length }) :=
  match ts with
  | .or :: ts =>
    match readAnd ts with
    | .error f => .error f
    | .ok (right, ⟨rest, h⟩) =>
      match readOrTail (.or left right) rest with
      | .error f => .error f
      | .ok (e, ⟨r, hr⟩) => .ok (e, ⟨r, by simp only [List.length_cons]; omega⟩)
  | ts => .ok (left, ⟨ts, Nat.le_refl _⟩)
termination_by (ts.length, 5)

def readAnd (ts : List Token) : Reading ts :=
  match readNot ts with
  | .error f => .error f
  | .ok (left, ⟨rest, h⟩) =>
    match readAndTail left rest with
    | .error f => .error f
    | .ok (e, ⟨r, hr⟩) => .ok (e, ⟨r, by omega⟩)
termination_by (ts.length, 3)

def readAndTail (left : Tree) (ts : List Token) :
    Except Fault (Tree × { rest : List Token // rest.length ≤ ts.length }) :=
  match ts with
  | .and :: ts =>
    match readNot ts with
    | .error f => .error f
    | .ok (right, ⟨rest, h⟩) =>
      match readAndTail (.and left right) rest with
      | .error f => .error f
      | .ok (e, ⟨r, hr⟩) => .ok (e, ⟨r, by simp only [List.length_cons]; omega⟩)
  | ts => .ok (left, ⟨ts, Nat.le_refl _⟩)
termination_by (ts.length, 4)

def readNot (ts : List Token) : Reading ts :=
  match ts with
  | .not :: ts =>
    match readNot ts with
    | .error f => .error f
    | .ok (e, ⟨rest, h⟩) => .ok (.not e, ⟨rest, by simp only [List.length_cons]; omega⟩)
  | ts => readComparison ts
termination_by (ts.length, 2)

def readComparison (ts : List Token) : Reading ts :=
  match readOperand ts with
  | .error f => .error f
  | .ok (left, ⟨.op c :: rest, h⟩) =>
    have shorter : rest.length < ts.length := by simp only [List.length_cons] at h; omega
    match readOperand rest with
    | .error f => .error f
    | .ok (right, ⟨r, hr⟩) => .ok (.compare left c right, ⟨r, by omega⟩)
  | .ok (left, rest) => .ok (left, rest)
termination_by (ts.length, 1)

def readOperand (ts : List Token) : Reading ts :=
  match ts with
  | .opening :: ts =>
    match readOr ts with
    | .error f => .error f
    | .ok (e, ⟨.closing :: rest, h⟩) =>
      .ok (e, ⟨rest, by simp only [List.length_cons] at h ⊢; omega⟩)
    | .ok _ => .error .missingParenthesis
  | .minus :: .int i :: rest =>
    .ok (.literal (.int (-i)), ⟨rest, by simp only [List.length_cons]; omega⟩)
  | .minus :: .float x :: rest =>
    .ok (.literal (.float x.neg), ⟨rest, by simp only [List.length_cons]; omega⟩)
  | .minus :: _ => .error .missingNumber
  | .int i :: rest => .ok (.literal (.int i), ⟨rest, Nat.lt_succ_self _⟩)
  | .float x :: rest => .ok (.literal (.float x), ⟨rest, Nat.lt_succ_self _⟩)
  | .text s :: rest => .ok (.literal (.text s), ⟨rest, Nat.lt_succ_self _⟩)
  | .name s :: rest => .ok (nameTree s, ⟨rest, Nat.lt_succ_self _⟩)
  | t :: _ => .error (.unexpectedToken t)
  | [] => .error .unexpectedEnd
termination_by (ts.length, 0)

end

def treeOfTokens (ts : List Token) : Except Fault Tree :=
  match readOr ts with
  | .error f => .error f
  | .ok (e, ⟨[], _⟩) => .ok e
  | .ok (_, ⟨t :: _, _⟩) => .error (.unexpectedToken t)

def parse (source : String) : Except Fault Tree :=
  match tokens source with
  | .error f => .error f
  | .ok ts => treeOfTokens ts

end SqlMapper.Expr
