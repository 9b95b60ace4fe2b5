import SqlMapper.Sql.Context
import SqlMapper.Sql.Placeholder

/-!
Loops over the items of a list or the entries of a map. Every pass binds its item and its index
under generated names that no other pass has, and renames the placeholders of the loop's names to
them, so that they still read this pass's values after the loop.
-/

namespace SqlMapper

open Text

structure Loop where
  collection : String
  item : Option String
  index : Option String
  opening : String
  closing : String
  separator : String
  nullable : Bool
  deriving DecidableEq, Repr

namespace Loop

def indexed (i : Nat) : List Value → List (Value × Value)
  | [] => []
  | v :: vs => (.int (.ofNat i), v) :: indexed (i + 1) vs

def passes (loop : Loop) (collection : Value) : Except Error (List (Value × Value)) :=
  match collection with
  | .list items => .ok (indexed 0 items)
  | .map entries => .ok (entries.map fun e => (.text e.1, e.2))
  | .null =>
    if loop.nullable then .ok []
    else .error (.binding s!"collection '{loop.collection}' evaluated to null")
  | v => .error (.binding s!"collection '{loop.collection}' is not iterable: {v.toText}")

def generated (var : String) (n : Nat) : String :=
  "__frch_" ++ var ++ "_" ++ toString n

def options (content : List Char) : List Char :=
  match Placeholder.property content with
  | [] => content
  | name => (dropBlanks content).drop name.length

def below? (var name : List Char) : Option (List Char) :=
  if var.isPrefixOf name then
    match name.drop var.length with
    | [] => some []
    | '.' :: rest => some ('.' :: rest)
    | _ => none
  else none

def renameContent (vars : List String) (n : Nat) (content : List Char) : List Char :=
  let renamed? := vars.findSome? fun var =>
    (below? var.toList (Placeholder.property content)).map fun rest =>
      (generated var n).toList ++ rest ++ options content
  renamed?.getD content

def vars (loop : Loop) : List String :=
  loop.item.toList ++ loop.index.toList

def rename (loop : Loop) (n : Nat) (body : String) : Except Error String :=
  (Placeholder.pieces body).map fun ps =>
    .ofList (ps.flatMap (·.replace fun content =>
      Placeholder.write (renameContent loop.vars n content)))

def bindVar (var : Option String) (n : Nat) (v : Value) (ctx : Context) : Context :=
  match var with
  | some name => (ctx.bind name v).bind (generated name n) v
  | none => ctx

def unbindVars (loop : Loop) (ctx : Context) : Context :=
  loop.vars.foldl (fun c name => c.unbind name) ctx

def pass (loop : Loop) (body : Render Bool) (index item : Value) : Render String := do
  let n ← Render.nextNumber
  modify fun ctx => bindVar loop.item n item (bindVar loop.index n index ctx)
  let (_, text) ← Render.isolated body
  Render.ofContext fun _ => loop.rename n text

/-- The texts of the passes; those with blanks only are left out. -/
def texts (loop : Loop) (body : Render Bool) : List (Value × Value) → Render (List String)
  | [] => return []
  | (index, item) :: rest => do
    let text ← loop.pass body index item
    let more ← loop.texts body rest
    return if isBlankText text then more else text :: more

/-- Renders a loop, which counts as rendered even without a pass. -/
def render (loop : Loop) (body : Render Bool) : Render Bool := do
  let entries ← Render.ofContext fun ctx => loop.passes (ctx.valueAt loop.collection)
  if entries.isEmpty then return true
  let texts ← loop.texts body entries
  modify loop.unbindVars
  modify (Context.append (loop.opening ++ loop.separator.intercalate texts ++ loop.closing))
  return true

end Loop
end SqlMapper
