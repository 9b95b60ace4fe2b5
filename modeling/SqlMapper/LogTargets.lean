/-!
Log levels by target, and the filter text made of them.
-/

namespace SqlMapper

structure LogTargets where
  default : String
  pool : Option String
  cache : Option String
  scripting : Option String
  executor : Option String
  deriving DecidableEq, Repr

namespace LogTargets

def standard : LogTargets := ⟨"info", none, none, none, none⟩

def all (level : String) : LogTargets :=
  ⟨level, some level, some level, some level, some level⟩

def setting (target : String) (level : Option String) : String :=
  match level with
  | some level => "," ++ target ++ "=" ++ level
  | none => ""

/-- The filter text: the default level, then the targets that have their own. -/
def directive (t : LogTargets) : String :=
  t.default ++ setting "pool" t.pool ++ setting "cache" t.cache ++
    setting "scripting" t.scripting ++ setting "executor" t.executor

end LogTargets
end SqlMapper
