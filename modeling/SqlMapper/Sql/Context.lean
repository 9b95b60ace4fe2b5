import SqlMapper.Error
import SqlMapper.Text.Blank
import SqlMapper.Text.Split
import SqlMapper.Value.Path

/-!
The state of one render. There is always an innermost open buffer, which takes what is written; the
buffers around it wait until it is closed, and the outermost one holds the statement.
-/

namespace SqlMapper

open Text

/-- The value of a dotted path. A bound first segment decides; else the path is looked up in a map
parameter, and a parameter that is a single value answers every path of one segment. -/
def resolve (bindings : Entries Value) (parameter : Value) (path : String) : Value :=
  let cs := path.toList
  match bindings.lookup (.ofList (before '.' cs)), after? '.' cs with
  | some v, none => v
  | some v, some rest => (v.lookup? (.ofList rest)).getD .null
  | none, rest =>
    match parameter with
    | .map _ => (parameter.lookup? path).getD .null
    | .null | .list _ => .null
    | v => if rest.isNone then v else .null

structure Context where
  parameter : Value
  bindings : Entries Value
  written : List String
  /-- The buffers around the innermost one, the nearest first. -/
  enclosing : List (List String)
  counter : Nat

namespace Context

def parameterName : String := "_parameter"

def databaseName : String := "_databaseId"

def databaseValue (id : Option String) : Value :=
  match id with
  | some id => .text id
  | none => .null

def start (parameter : Value) (databaseId : Option String) : Context where
  parameter := parameter
  bindings := Entries.ofList
    [(parameterName, parameter), (databaseName, databaseValue databaseId)]
  written := []
  enclosing := []
  counter := 0

def bind (name : String) (v : Value) (ctx : Context) : Context :=
  { ctx with bindings := Entries.insert name v ctx.bindings }

def unbind (name : String) (ctx : Context) : Context :=
  { ctx with bindings := Entries.erase name ctx.bindings }

def valueAt (ctx : Context) (path : String) : Value :=
  resolve ctx.bindings ctx.parameter path

/-- The context after a fragment was written, which leaves blanks at both ends of it out and a blank
fragment altogether. -/
def append (fragment : String) (ctx : Context) : Context :=
  if isBlankText fragment then ctx
  else { ctx with written := ctx.written ++ [trim fragment] }

def joined (fragments : List String) : String :=
  " ".intercalate fragments

def enter (ctx : Context) : Context :=
  { ctx with written := [], enclosing := ctx.written :: ctx.enclosing }

/-- The text of the innermost buffer, and the context with that buffer closed. The statement's own
buffer stays open. -/
def leave (ctx : Context) : String × Context :=
  match ctx.enclosing with
  | [] => ("", ctx)
  | outer :: rest => (joined ctx.written, { ctx with written := outer, enclosing := rest })

def sql (ctx : Context) : String :=
  trim (joined (ctx.enclosing.getLast?.getD ctx.written))

end Context

/-- A step of a render. The context is kept when the step fails. -/
abbrev Render (α : Type) := ExceptT Error (StateM Context) α

namespace Render

/-- Runs a step with a buffer of its own and returns what the step wrote there. The buffer is closed
also when the step fails. -/
def isolated {α : Type} (step : Render α) : Render (α × String) :=
  ExceptT.mk fun ctx =>
    match step.run ctx.enter with
    | (.ok a, after) => (.ok (a, after.leave.1), after.leave.2)
    | (.error e, after) => (.error e, after.leave.2)

def nextNumber : Render Nat :=
  modifyGet fun ctx => (ctx.counter, { ctx with counter := ctx.counter + 1 })

def ofContext {α : Type} (f : Context → Except Error α) : Render α :=
  ExceptT.mk fun ctx => (f ctx, ctx)

end Render
end SqlMapper
