import SqlMapper.Json.Basic
import SqlMapper.Text.Numeral

/-!
Reading JSON documents. Every reading function takes at least one character off the front, and the
recursion is on the length of what is left.
-/

namespace SqlMapper.Json

open Text

def isSpace (c : Char) : Bool :=
  c == ' ' || c == '\n' || c == '\t' || c == '\r'

def skipSpaces (cs : List Char) : List Char :=
  cs.dropWhile isSpace

theorem skipSpaces_length (cs : List Char) : (skipSpaces cs).length ≤ cs.length :=
  (List.dropWhile_sublist isSpace).length_le

def hexDigit? (c : Char) : Option Nat :=
  if '0' ≤ c ∧ c ≤ '9' then some (c.toNat - '0'.toNat)
  else if 'a' ≤ c ∧ c ≤ 'f' then some (c.toNat - 'a'.toNat + 10)
  else if 'A' ≤ c ∧ c ≤ 'F' then some (c.toNat - 'A'.toNat + 10)
  else none

def fourHexDigits? (a b c d : Char) : Option Nat := do
  let a ← hexDigit? a
  let b ← hexDigit? b
  let c ← hexDigit? c
  let d ← hexDigit? d
  return ((a * 16 + b) * 16 + c) * 16 + d

def shortEscape? (c : Char) : Option Char :=
  match c with
  | '"' => some '"'
  | '\\' => some '\\'
  | '/' => some '/'
  | 'b' => some '\x08'
  | 'f' => some '\x0c'
  | 'n' => some '\n'
  | 'r' => some '\r'
  | 't' => some '\t'
  | _ => none

inductive TextPart where
  | char (c : Char)
  | unit (n : Nat)

def textParts? : List Char → Option (List TextPart × List Char)
  | [] => none
  | '"' :: rest => some ([], rest)
  | '\\' :: 'u' :: a :: b :: c :: d :: rest => do
    let n ← fourHexDigits? a b c d
    let (parts, r) ← textParts? rest
    return (.unit n :: parts, r)
  | '\\' :: c :: rest => do
    let e ← shortEscape? c
    let (parts, r) ← textParts? rest
    return (.char e :: parts, r)
  | c :: rest => do
    if c.toNat < 32 then none
    else
      let (parts, r) ← textParts? rest
      return (.char c :: parts, r)

/-- The characters of a text. Two units in a row are one character if they are the halves of a
surrogate pair; a half on its own is no character. -/
def assemble? : List TextPart → Option (List Char)
  | [] => some []
  | .char c :: rest => (assemble? rest).map (c :: ·)
  | .unit n :: .unit m :: rest =>
    if 0xd800 ≤ n ∧ n < 0xdc00 then
      if 0xdc00 ≤ m ∧ m < 0xe000 then
        (assemble? rest).map (Char.ofNat (0x10000 + (n - 0xd800) * 0x400 + (m - 0xdc00)) :: ·)
      else none
    else if 0xdc00 ≤ n ∧ n < 0xe000 then none
    else (assemble? (.unit m :: rest)).map (Char.ofNat n :: ·)
  | .unit n :: rest =>
    if 0xd800 ≤ n ∧ n < 0xe000 then none else (assemble? rest).map (Char.ofNat n :: ·)

theorem textParts?_length {s r : List Char} {parts : List TextPart}
    (h : textParts? s = some (parts, r)) : r.length < s.length := by
  fun_induction textParts? s generalizing parts r with
  | case1 => simp at h
  | case2 rest => simp_all
  | case3 a b c d rest ih =>
    simp only [Option.bind_eq_bind, Option.bind_eq_some_iff, Prod.exists, Option.pure_def,
      Option.some.injEq, Prod.mk.injEq] at h
    obtain ⟨n, _, ps, t, ht, _, rfl⟩ := h
    have := ih ht
    simp only [List.length_cons]
    omega
  | case4 c rest _ ih =>
    simp only [Option.bind_eq_bind, Option.bind_eq_some_iff, Prod.exists, Option.pure_def,
      Option.some.injEq, Prod.mk.injEq] at h
    obtain ⟨n, _, ps, t, ht, _, rfl⟩ := h
    have := ih ht
    simp only [List.length_cons]
    omega
  | case5 c rest _ _ _ hc => simp at h
  | case6 c rest _ _ _ hc ih =>
    simp only [Option.bind_eq_bind, Option.bind_eq_some_iff, Prod.exists, Option.pure_def,
      Option.some.injEq, Prod.mk.injEq] at h
    obtain ⟨ps, t, ht, _, rfl⟩ := h
    have := ih ht
    simp only [List.length_cons]
    omega

def digits? (cs : List Char) : Option (List Char × List Char) :=
  match cs.takeWhile isDigit with
  | [] => none
  | ds => some (ds, cs.dropWhile isDigit)

theorem digits?_length {s ds r : List Char} (h : digits? s = some (ds, r)) :
    r.length < s.length := by
  unfold digits? at h
  split at h
  · simp at h
  · next hne =>
    simp only [Option.some.injEq, Prod.mk.injEq] at h
    have hsum := congrArg List.length (List.takeWhile_append_dropWhile (p := isDigit) (l := s))
    have hpos : (s.takeWhile isDigit).length ≠ 0 :=
      fun h0 => hne (List.eq_nil_of_length_eq_zero h0)
    rw [List.length_append] at hsum
    rw [← h.2]
    omega

def whole? : List Char → Option (List Char × List Char)
  | '0' :: rest => if (rest.head?.map isDigit).getD false then none else some (['0'], rest)
  | cs => digits? cs

def places? : List Char → Option (List Char × List Char)
  | '.' :: rest => (digits? rest).map fun (ds, r) => ('.' :: ds, r)
  | cs => some ([], cs)

def power? : List Char → Option (List Char × List Char)
  | c :: rest =>
    if c = 'e' ∨ c = 'E' then
      match rest with
      | '+' :: r => (digits? r).map fun (ds, t) => (c :: '+' :: ds, t)
      | '-' :: r => (digits? r).map fun (ds, t) => (c :: '-' :: ds, t)
      | r => (digits? r).map fun (ds, t) => (c :: ds, t)
    else some ([], c :: rest)
  | [] => some ([], [])

def unsigned? (cs : List Char) : Option (List Char × List Char) := do
  let (whole, r) ← whole? cs
  let (places, r) ← places? r
  let (power, r) ← power? r
  return (whole ++ places ++ power, r)

def number? : List Char → Option (List Char × List Char)
  | '-' :: rest => (unsigned? rest).map fun (ds, r) => ('-' :: ds, r)
  | cs => unsigned? cs

theorem whole?_length {s ds r : List Char} (h : whole? s = some (ds, r)) :
    r.length < s.length := by
  unfold whole? at h
  split at h
  · split at h
    · simp at h
    · simp only [Option.some.injEq, Prod.mk.injEq] at h
      simp [← h.2]
  · exact digits?_length h

theorem places?_length {s ds r : List Char} (h : places? s = some (ds, r)) :
    r.length ≤ s.length := by
  unfold places? at h
  split at h
  · obtain ⟨⟨es, t⟩, ht, he⟩ := Option.map_eq_some_iff.mp h
    have := digits?_length ht
    simp only [Prod.mk.injEq] at he
    simp only [List.length_cons, ← he.2]
    omega
  · simp only [Option.some.injEq, Prod.mk.injEq] at h
    simp [← h.2]

theorem power?_length {s ds r : List Char} (h : power? s = some (ds, r)) :
    r.length ≤ s.length := by
  unfold power? at h
  split at h
  · split at h
    · split at h <;>
      · obtain ⟨⟨es, t⟩, ht, he⟩ := Option.map_eq_some_iff.mp h
        have := digits?_length ht
        simp only [Prod.mk.injEq] at he
        simp only [List.length_cons, ← he.2]
        omega
    · simp only [Option.some.injEq, Prod.mk.injEq] at h
      simp [← h.2]
  · simp only [Option.some.injEq, Prod.mk.injEq] at h
    simp [← h.2]

theorem unsigned?_length {s ds r : List Char} (h : unsigned? s = some (ds, r)) :
    r.length < s.length := by
  simp only [unsigned?, Option.bind_eq_bind, Option.bind_eq_some_iff, Prod.exists,
    Option.pure_def, Option.some.injEq, Prod.mk.injEq] at h
  obtain ⟨w, r₁, h₁, p, r₂, h₂, e, r₃, h₃, _, rfl⟩ := h
  have := whole?_length h₁
  have := places?_length h₂
  have := power?_length h₃
  omega

theorem number?_length {s ds r : List Char} (h : number? s = some (ds, r)) :
    r.length < s.length := by
  unfold number? at h
  split at h
  · obtain ⟨⟨es, t⟩, ht, he⟩ := Option.map_eq_some_iff.mp h
    have := unsigned?_length ht
    simp only [Prod.mk.injEq] at he
    simp only [List.length_cons, ← he.2]
    omega
  · exact unsigned?_length h

def dropWord? : List Char → List Char → Option (List Char)
  | [], cs => some cs
  | w :: ws, c :: cs => if w = c then dropWord? ws cs else none
  | _ :: _, [] => none

theorem dropWord?_length {w s r : List Char} (h : dropWord? w s = some r) :
    r.length + w.length = s.length := by
  fun_induction dropWord? w s with
  | case1 cs => simp_all
  | case2 ws c cs ih =>
    have := ih h
    simp only [List.length_cons]
    omega
  | case3 => simp at h
  | case4 => simp at h

def sign? (c : Char) (cs : List Char) : Option (List Char) :=
  dropWord? [c] (skipSpaces cs)

theorem sign?_length {c : Char} {s r : List Char} (h : sign? c s = some r) :
    r.length < s.length := by
  have h₁ := dropWord?_length h
  have h₂ := skipSpaces_length s
  simp only [List.length_cons, List.length_nil] at h₁
  omega

/-- A document read off the front of a text, and what is left, which is shorter. -/
abbrev Reading (α : Type) (cs : List Char) : Type :=
  Option (α × { rest : List Char // rest.length < cs.length })

def Reading.weaken {α : Type} {cs ds : List Char} (h : cs.length ≤ ds.length)
    (x : Reading α cs) : Reading α ds :=
  x.map fun (a, ⟨r, hr⟩) => (a, ⟨r, Nat.lt_of_lt_of_le hr h⟩)

def word? (word : List Char) (j : Json) (cs : List Char) (h : word ≠ []) : Reading Json cs :=
  match hw : dropWord? word cs with
  | none => none
  | some r => some (j, ⟨r, by
      have := dropWord?_length hw
      have := List.length_pos_iff.mpr h
      omega⟩)

mutual

def value? (cs : List Char) : Reading Json cs :=
  have spaces := skipSpaces_length cs
  match hs : skipSpaces cs with
  | [] => none
  | '"' :: rest =>
    match ht : textParts? rest with
    | none => none
    | some (parts, r) => some (.text ((assemble? parts).map String.ofList), ⟨r, by
        have := textParts?_length ht
        simp only [hs, List.length_cons] at spaces
        omega⟩)
  | '[' :: rest =>
    match hc : sign? ']' rest with
    | some r => some (.array [], ⟨r, by
        have := sign?_length hc
        simp only [hs, List.length_cons] at spaces
        omega⟩)
    | none =>
      match items? rest with
      | none => none
      | some (js, ⟨r, hr⟩) => some (.array js, ⟨r, by
          simp only [hs, List.length_cons] at spaces
          omega⟩)
  | '\x7b' :: rest =>
    match hc : sign? '\x7d' rest with
    | some r => some (.object [], ⟨r, by
        have := sign?_length hc
        simp only [hs, List.length_cons] at spaces
        omega⟩)
    | none =>
      match members? rest with
      | none => none
      | some (ms, ⟨r, hr⟩) => some (.object ms, ⟨r, by
          simp only [hs, List.length_cons] at spaces
          omega⟩)
  | 'n' :: rest =>
    Reading.weaken (hs ▸ spaces) (word? "null".toList .null ('n' :: rest) (List.cons_ne_nil _ _))
  | 't' :: rest =>
    Reading.weaken (hs ▸ spaces) (word? "true".toList (.bool true) ('t' :: rest) (List.cons_ne_nil _ _))
  | 'f' :: rest =>
    Reading.weaken (hs ▸ spaces) (word? "false".toList (.bool false) ('f' :: rest) (List.cons_ne_nil _ _))
  | c :: rest =>
    match hn : number? (c :: rest) with
    | none => none
    | some (ds, r) => some (.number ds, ⟨r, by
        have := number?_length hn
        rw [hs] at spaces
        omega⟩)
termination_by (cs.length, 0)
decreasing_by
  all_goals
    simp only [hs, List.length_cons] at spaces
    apply Prod.Lex.left
    omega

def items? (cs : List Char) : Reading (List Json) cs :=
  match value? cs with
  | none => none
  | some (j, ⟨r, hr⟩) =>
    match hc : sign? ',' r with
    | some t =>
      have shorter := sign?_length hc
      match items? t with
      | none => none
      | some (js, ⟨u, hu⟩) => some (j :: js, ⟨u, by omega⟩)
    | none =>
      match hb : sign? ']' r with
      | none => none
      | some t => some ([j], ⟨t, by have := sign?_length hb; omega⟩)
termination_by (cs.length, 1)

def members? (cs : List Char) : Reading (List (Option String × Json)) cs :=
  match hq : sign? '"' cs with
  | none => none
  | some r =>
    match ht : textParts? r with
    | none => none
    | some (parts, t) =>
      match hcolon : sign? ':' t with
      | none => none
      | some u =>
        have shorter : u.length < cs.length := by
          have := sign?_length hq
          have := textParts?_length ht
          have := sign?_length hcolon
          omega
        match value? u with
        | none => none
        | some (j, ⟨v, hv⟩) =>
          let name := (assemble? parts).map String.ofList
          match hc : sign? ',' v with
          | some w =>
            have shorter' := sign?_length hc
            match members? w with
            | none => none
            | some (ms, ⟨x, hx⟩) => some ((name, j) :: ms, ⟨x, by omega⟩)
          | none =>
            match hb : sign? '\x7d' v with
            | none => none
            | some w => some ([(name, j)], ⟨w, by have := sign?_length hb; omega⟩)
termination_by (cs.length, 1)

end

def read? (s : String) : Option Json :=
  match value? s.toList with
  | some (j, ⟨rest, _⟩) => if skipSpaces rest = [] then some j else none
  | none => none

end SqlMapper.Json
