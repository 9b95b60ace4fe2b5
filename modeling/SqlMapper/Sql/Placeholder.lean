import SqlMapper.Error
import SqlMapper.Text.Blank
import SqlMapper.Text.Split

/-!
Placeholders in SQL text: a hash sign with the content in braces, which a backslash makes ordinary
text. Scanning cuts a text into pieces, and what is done with placeholders is a function on pieces.
-/

namespace SqlMapper.Placeholder

open Text

inductive Piece where
  | char (c : Char)
  | slot (content : List Char)
  deriving DecidableEq, Repr

def content? : List Char → Option (List Char × List Char)
  | [] => none
  | c :: rest =>
    if c = '\x7d' then some ([], rest)
    else (content? rest).map fun (cs, r) => (c :: cs, r)

theorem content?_length {s cs r : List Char} (h : content? s = some (cs, r)) :
    r.length ≤ s.length := by
  induction s generalizing cs r with
  | nil => simp [content?] at h
  | cons c rest ih =>
    rw [content?] at h
    split at h
    · simp only [Option.some.injEq, Prod.mk.injEq] at h
      simp [← h.2]
    · obtain ⟨⟨ds, t⟩, ht, he⟩ := Option.map_eq_some_iff.mp h
      have := ih ht
      simp only [Prod.mk.injEq] at he
      simp only [List.length_cons, ← he.2]
      omega

/-- The pieces of a text, or nothing when a placeholder is not closed. -/
def pieces? : List Char → Option (List Piece)
  | [] => some []
  | '\\' :: '#' :: '\x7b' :: rest => (pieces? rest).map ([.char '#', .char '\x7b'] ++ ·)
  | '#' :: '\x7b' :: rest =>
    match _h : content? rest with
    | none => none
    | some (content, r) => (pieces? r).map (.slot content :: ·)
  | c :: rest => (pieces? rest).map (.char c :: ·)
termination_by cs => cs.length
decreasing_by
  · simp only [List.length_cons]
    omega
  · have := content?_length _h
    simp only [List.length_cons]
    omega
  · exact Nat.lt_succ_self _

def pieces (text : String) : Except Error (List Piece) :=
  match pieces? text.toList with
  | some ps => .ok ps
  | none => .error (.binding ("unterminated '#\x7b' token in: " ++ text))

def write (content : List Char) : List Char :=
  ['#', '\x7b'] ++ content ++ ['\x7d']

def property (content : List Char) : List Char :=
  trimChars (before ',' content)

def Piece.replace (f : List Char → List Char) : Piece → List Char
  | .char c => [c]
  | .slot content => f content

def Piece.property? : Piece → Option String
  | .char _ => none
  | .slot content => some (.ofList (property content))

structure Template where
  sql : String
  properties : List String
  deriving DecidableEq, Repr

def Template.ofPieces (ps : List Piece) : Template :=
  ⟨.ofList (ps.flatMap (·.replace fun _ => ['?'])), ps.filterMap Piece.property?⟩

def template (text : String) : Except Error Template :=
  (pieces text).map Template.ofPieces

end SqlMapper.Placeholder
