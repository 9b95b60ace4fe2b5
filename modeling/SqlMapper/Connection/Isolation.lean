import SqlMapper.Error
import SqlMapper.Text.Blank
import SqlMapper.Text.Case
import SqlMapper.Text.Numeral

/-!
Transaction isolation levels, their codes and their names.
-/

namespace SqlMapper

inductive Isolation where
  | none
  | readUncommitted
  | readCommitted
  | repeatableRead
  | serializable
  deriving DecidableEq, Repr

namespace Isolation

def code : Isolation → Int
  | .none => 0
  | .readUncommitted => 1
  | .readCommitted => 2
  | .repeatableRead => 4
  | .serializable => 8

def ofCode? (code : Int) : Option Isolation :=
  [.none, .readUncommitted, .readCommitted, .repeatableRead, .serializable].find? (·.code == code)

def name : Isolation → String
  | .none => "NONE"
  | .readUncommitted => "READ_UNCOMMITTED"
  | .readCommitted => "READ_COMMITTED"
  | .repeatableRead => "REPEATABLE_READ"
  | .serializable => "SERIALIZABLE"

def ofName? (name : String) : Option Isolation :=
  [.none, .readUncommitted, .readCommitted, .repeatableRead, .serializable].find? (·.name == name)

/-- The level of a text: a code, or a name in any case of ASCII letters, with blanks around it. A
number that is no code is not tried as a name. -/
def ofText (text : String) : Except Error Isolation :=
  let trimmed := Text.trim text
  match Text.intWithin? (Nat.pow 2 31) trimmed with
  | some code => (ofCode? code).elim (.error (.config s!"unknown isolation level code {code}")) .ok
  | Option.none =>
    let name := String.ofList (Text.upper trimmed.toList)
    (ofName? name).elim (.error (.config s!"unknown isolation level '{name}'")) .ok

end Isolation
end SqlMapper
