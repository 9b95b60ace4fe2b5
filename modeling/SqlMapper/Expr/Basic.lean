import SqlMapper.Text.Quoted
import SqlMapper.Value.Basic

/-!
Test expressions: their tokens, their trees, and the faults found while reading them.
-/

namespace SqlMapper.Expr

inductive Comparison where
  | eq | ne | lt | le | gt | ge
  deriving DecidableEq, Repr

inductive Token where
  | name (s : String)
  | int (i : Int64)
  | float (x : Binary64)
  | text (s : String)
  | op (c : Comparison)
  | and
  | or
  | not
  | minus
  | opening
  | closing
  deriving DecidableEq

inductive Tree where
  | literal (v : Value)
  | path (p : String)
  | not (e : Tree)
  | and (left right : Tree)
  | or (left right : Tree)
  | compare (left : Tree) (op : Comparison) (right : Tree)
  deriving DecidableEq

/-- Why a text is no test expression. Offsets count characters. -/
inductive Fault where
  | loneEquals (offset : Nat)
  | loneConnective (sign : Char) (offset : Nat)
  | unterminatedText
  | invalidNumber (literal : String)
  | unexpectedCharacter (c : Char) (offset : Nat)
  | unexpectedToken (t : Token)
  | missingParenthesis
  | missingNumber
  | unexpectedEnd
  deriving DecidableEq

def Comparison.describe : Comparison → String
  | .eq => "Eq"
  | .ne => "NotEq"
  | .lt => "Lt"
  | .le => "LtEq"
  | .gt => "Gt"
  | .ge => "GtEq"

def Token.describe : Token → String
  | .name s => s!"Ident({Text.quoted s})"
  | .int i => s!"Int({i.toInt})"
  | .float x => s!"Float({x.toLiteral})"
  | .text s => s!"Str({Text.quoted s})"
  | .op c => s!"Op({c.describe})"
  | .and => "And"
  | .or => "Or"
  | .not => "Not"
  | .minus => "Minus"
  | .opening => "LParen"
  | .closing => "RParen"

def Fault.message : Fault → String
  | .loneEquals offset => s!"unexpected '=' at offset {offset}"
  | .loneConnective sign offset => s!"expected '{sign}{sign}' at offset {offset}"
  | .unterminatedText => "unterminated string literal"
  | .invalidNumber literal => s!"invalid number '{literal}'"
  | .unexpectedCharacter c offset => s!"unexpected character '{c}' at offset {offset}"
  | .unexpectedToken t => s!"unexpected token {t.describe}"
  | .missingParenthesis => "expected ')'"
  | .missingNumber => "expected a number after '-'"
  | .unexpectedEnd => "unexpected end of input"

end SqlMapper.Expr
