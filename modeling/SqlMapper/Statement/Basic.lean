import SqlMapper.Sql.Bound
import SqlMapper.Text.Quoted

/-!
Mapped statements: an id, a source of SQL, and how the statement uses the cache that it shares with
others.
-/

namespace SqlMapper

inductive StatementKind where
  | select
  | insert
  | update
  | delete
  deriving DecidableEq, Repr

namespace StatementKind

def isSelect (kind : StatementKind) : Bool := kind == .select

def describe : StatementKind → String
  | .select => "Select"
  | .insert => "Insert"
  | .update => "Update"
  | .delete => "Delete"

end StatementKind

structure Statement where
  id : String
  kind : StatementKind
  source : Source
  cache : Option String
  usesCache : Bool
  flushesCache : Bool

namespace Statement

/-- A statement without a cache. One that reads would use a cache, any other one would clear it. -/
def standard (id : String) (kind : StatementKind) (source : Source) : Statement :=
  ⟨id, kind, source, none, kind.isSelect, !kind.isSelect⟩

def describe (s : Statement) : String :=
  let cache :=
    match s.cache with
    | some name => "Some(" ++ Text.quoted name ++ ")"
    | none => "None"
  "MappedStatement \x7b id: " ++ Text.quoted s.id ++ ", kind: " ++ s.kind.describe ++
    ", cache: " ++ cache ++ ", use_cache: " ++ toString s.usesCache ++ ", flush_cache: " ++
    toString s.flushesCache ++ " \x7d"

end Statement
end SqlMapper
