import SqlMapper.Sql.Fragment

/-!
Bound statements: SQL text with question marks, the properties they stand for, and the values these
take.
-/

namespace SqlMapper

open Text

structure BoundSql where
  sql : String
  properties : List String
  parameter : Value
  additional : Entries Value
  deriving DecidableEq

namespace BoundSql

def ofTemplate (t : Placeholder.Template) (parameter : Value) : BoundSql :=
  ⟨t.sql, t.properties, parameter, []⟩

def setAdditional (name : String) (v : Value) (b : BoundSql) : BoundSql :=
  { b with additional := Entries.insert name v b.additional }

def hasAdditional (b : BoundSql) (name : String) : Bool :=
  Entries.holds (.ofList (before '.' name.toList)) b.additional

def additional? (b : BoundSql) (name : String) : Option Value :=
  b.additional.lookup name

def values (b : BoundSql) : List Value :=
  b.properties.map (resolve b.additional b.parameter)

end BoundSql

inductive Source where
  | fixed (template : Placeholder.Template)
  | rendered (root : Fragment) (databaseId : Option String)

namespace Source

def ofText (sql : String) : Except Error Source :=
  (Placeholder.template (trim sql)).map .fixed

/-- The statement for a parameter. What a render has bound becomes additional parameters. -/
def bound (s : Source) (parameter : Value) : Except Error BoundSql :=
  match s with
  | .fixed t => .ok (.ofTemplate t parameter)
  | .rendered root databaseId =>
    match root.render.run (Context.start parameter databaseId) with
    | (.error e, _) => .error e
    | (.ok _, ctx) =>
      (Placeholder.template ctx.sql).map fun t =>
        { BoundSql.ofTemplate t parameter with additional := ctx.bindings }

end Source
end SqlMapper
