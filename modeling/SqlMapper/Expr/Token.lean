import SqlMapper.Expr.Basic
import SqlMapper.Text.Blank
import SqlMapper.Text.Numeral
import SqlMapper.Text.Split

/-!
Reading the tokens of a test expression. One step takes a token off the front of the text; reading
repeats the step and passes over blanks between tokens.
-/

namespace SqlMapper.Expr

open Text

def startsName (c : Char) : Bool :=
  isAlphabetic c || c == '_'

def continuesName (c : Char) : Bool :=
  isAlphanumeric c || c == '_' || c == '.'

def continuesNumber (c : Char) : Bool :=
  isDigit c || c == '.'

def wordToken (word : String) : Token :=
  match word with
  | "and" => .and
  | "or" => .or
  | "not" => .not
  | "eq" => .op .eq
  | "neq" => .op .ne
  | "lt" => .op .lt
  | "lte" => .op .le
  | "gt" => .op .gt
  | "gte" => .op .ge
  | _ => .name word

/-- The token of a run of digits and points: an integer of 64 bits, or with a single point the
nearest double precision number. -/
def numberToken (cs : List Char) : Except Fault Token :=
  match split '.' cs with
  | [whole] =>
    if digitsValue whole < Nat.pow 2 63 then .ok (.int (.ofNat (digitsValue whole)))
    else .error (.invalidNumber (.ofList cs))
  | [whole, decimals] =>
    .ok (.float (.ofRatio false (digitsValue (whole ++ decimals)) (Nat.pow 10 decimals.length)))
  | _ => .error (.invalidNumber (.ofList cs))

/-- The characters of a text literal up to its closing quote, and the rest. A backslash takes the
next character as it is. -/
def textLiteral? (quote : Char) : List Char → Option (List Char × List Char)
  | [] => none
  | ['\\'] => none
  | '\\' :: c :: rest => (textLiteral? quote rest).map fun (cs, r) => (c :: cs, r)
  | c :: rest =>
    if c = quote then some ([], rest)
    else (textLiteral? quote rest).map fun (cs, r) => (c :: cs, r)

def longToken (offset : Nat) (c : Char) (rest : List Char) : Except Fault (Token × List Char) :=
  if c = '\'' ∨ c = '"' then
    match textLiteral? c rest with
    | some (cs, r) => .ok (.text (.ofList cs), r)
    | none => .error .unterminatedText
  else if isDigit c then
    match numberToken (c :: rest.takeWhile continuesNumber) with
    | .ok t => .ok (t, rest.dropWhile continuesNumber)
    | .error f => .error f
  else if startsName c then
    .ok (wordToken (.ofList (c :: rest.takeWhile continuesName)), rest.dropWhile continuesName)
  else .error (.unexpectedCharacter c offset)

def token (offset : Nat) (c : Char) (rest : List Char) : Except Fault (Token × List Char) :=
  match c, rest with
  | '(', _ => .ok (.opening, rest)
  | ')', _ => .ok (.closing, rest)
  | '-', _ => .ok (.minus, rest)
  | '=', '=' :: r => .ok (.op .eq, r)
  | '=', _ => .error (.loneEquals offset)
  | '!', '=' :: r => .ok (.op .ne, r)
  | '!', _ => .ok (.not, rest)
  | '<', '=' :: r => .ok (.op .le, r)
  | '<', _ => .ok (.op .lt, rest)
  | '>', '=' :: r => .ok (.op .ge, r)
  | '>', _ => .ok (.op .gt, rest)
  | '&', '&' :: r => .ok (.and, r)
  | '&', _ => .error (.loneConnective '&' offset)
  | '|', '|' :: r => .ok (.or, r)
  | '|', _ => .error (.loneConnective '|' offset)
  | c, _ => longToken offset c rest

theorem textLiteral?_length {quote : Char} {s cs r : List Char}
    (h : textLiteral? quote s = some (cs, r)) : r.length ≤ s.length := by
  fun_induction textLiteral? quote s generalizing cs r with
  | case1 => simp at h
  | case2 => simp at h
  | case3 c rest ih =>
    obtain ⟨⟨ds, t⟩, ht, he⟩ := Option.map_eq_some_iff.mp h
    have := ih ht
    simp_all
    omega
  | case4 rest => simp_all
  | case5 c rest _ _ _ ih =>
    obtain ⟨⟨ds, t⟩, ht, he⟩ := Option.map_eq_some_iff.mp h
    have := ih ht
    simp_all
    omega

theorem length_dropWhile_le (p : Char → Bool) (cs : List Char) :
    (cs.dropWhile p).length ≤ cs.length :=
  (List.dropWhile_sublist p).length_le

theorem longToken_length {offset : Nat} {c : Char} {rest r : List Char} {t : Token}
    (h : longToken offset c rest = .ok (t, r)) : r.length ≤ rest.length := by
  unfold longToken at h
  split at h
  · split at h
    · next hl =>
      simp only [Except.ok.injEq, Prod.mk.injEq] at h
      exact h.2 ▸ textLiteral?_length hl
    · simp at h
  · split at h
    · split at h
      · simp only [Except.ok.injEq, Prod.mk.injEq] at h
        exact h.2 ▸ length_dropWhile_le continuesNumber rest
      · simp at h
    · split at h
      · simp only [Except.ok.injEq, Prod.mk.injEq] at h
        exact h.2 ▸ length_dropWhile_le continuesName rest
      · simp at h

/-- A token's rest is no longer than what followed its first character. -/
theorem token_length {offset : Nat} {c : Char} {rest r : List Char} {t : Token}
    (h : token offset c rest = .ok (t, r)) : r.length ≤ rest.length := by
  unfold token at h
  split at h
  all_goals first
    | exact longToken_length h
    | cases h <;> simp

def tokensFrom (size : Nat) : List Char → Except Fault (List Token)
  | [] => .ok []
  | c :: rest =>
    if isBlank c then tokensFrom size rest
    else
      match _h : token (size - (rest.length + 1)) c rest with
      | .error f => .error f
      | .ok (t, r) => (tokensFrom size r).map (t :: ·)
termination_by cs => cs.length
decreasing_by
  · exact Nat.lt_succ_self _
  · have := token_length _h
    simp only [List.length_cons]
    omega

def tokens (source : String) : Except Fault (List Token) :=
  tokensFrom source.length source.toList

end SqlMapper.Expr
