/-!
JSON documents and how they are written, on one line or indented by two blanks. Only what a
document needs to is escaped in a text: quotes, backslashes and control characters.
-/

namespace SqlMapper

inductive Json where
  | null
  | bool (b : Bool)
  /-- A number, kept as it is spelled. -/
  | number (spelling : List Char)
  /-- A text; one that spells half of a surrogate pair has no characters to show. -/
  | text (s : Option String)
  | array (items : List Json)
  | object (members : List (Option String × Json))

namespace Json

def ofNat (n : Nat) : Json := .number (Nat.toDigits 10 n)

def ofString (s : String) : Json := .text (some s)

def ofMembers (members : List (String × Json)) : Json :=
  .object (members.map fun m => (some m.1, m.2))

def twoHexDigits (n : Nat) : List Char :=
  Nat.toDigits 16 (n / 16 % 16) ++ Nat.toDigits 16 (n % 16)

def escapeChar (c : Char) : List Char :=
  match c with
  | '"' => ['\\', '"']
  | '\\' => ['\\', '\\']
  | '\x08' => ['\\', 'b']
  | '\x0c' => ['\\', 'f']
  | '\n' => ['\\', 'n']
  | '\r' => ['\\', 'r']
  | '\t' => ['\\', 't']
  | c => if c.toNat < 32 then ['\\', 'u', '0', '0'] ++ twoHexDigits c.toNat else [c]

def escape (s : String) : List Char :=
  '"' :: s.toList.flatMap escapeChar ++ ['"']

def compact : Json → List Char
  | .null => "null".toList
  | .bool b => (if b then "true" else "false").toList
  | .number spelling => spelling
  | .text s => escape (s.getD "")
  | .array items => '[' :: [','].intercalate (compactItems items) ++ [']']
  | .object members => '\x7b' :: [','].intercalate (compactMembers members) ++ ['\x7d']
where
  compactItems : List Json → List (List Char)
    | [] => []
    | j :: js => compact j :: compactItems js
  compactMembers : List (Option String × Json) → List (List Char)
    | [] => []
    | (name, j) :: ms => (escape (name.getD "") ++ ':' :: compact j) :: compactMembers ms

def newline (indent : Nat) : List Char :=
  '\n' :: List.replicate (2 * indent) ' '

def lines (indent : Nat) (opening closing : Char) (parts : List (List Char)) : List Char :=
  match parts with
  | [] => [opening, closing]
  | parts =>
    opening :: newline (indent + 1) ++ (',' :: newline (indent + 1)).intercalate parts ++
      newline indent ++ [closing]

def pretty (indent : Nat) : Json → List Char
  | .null => "null".toList
  | .bool b => (if b then "true" else "false").toList
  | .number spelling => spelling
  | .text s => escape (s.getD "")
  | .array items => lines indent '[' ']' (prettyItems indent items)
  | .object members => lines indent '\x7b' '\x7d' (prettyMembers indent members)
where
  prettyItems (indent : Nat) : List Json → List (List Char)
    | [] => []
    | j :: js => pretty (indent + 1) j :: prettyItems indent js
  prettyMembers (indent : Nat) : List (Option String × Json) → List (List Char)
    | [] => []
    | (name, j) :: ms =>
      (escape (name.getD "") ++ ':' :: ' ' :: pretty (indent + 1) j) :: prettyMembers indent ms

end Json
end SqlMapper
