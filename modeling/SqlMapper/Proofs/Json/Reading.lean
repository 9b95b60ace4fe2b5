import SqlMapper.Json.Reader
import SqlMapper.Proofs.Text.Numerals

/-!
Reading the parts of a document off the front of a text. The bounds that the readers carry along for
their recursion are left out here, and each of them is given by one equation.
-/

namespace SqlMapper.Json

open Text

section Equations

variable {α : Type}

def Reading.plain {cs : List Char} (x : Reading α cs) : Option (α × List Char) :=
  x.map fun a => (a.1, a.2.val)

theorem plain_weaken {cs ds : List Char} (h : cs.length ≤ ds.length) (x : Reading α cs) :
    (x.weaken h).plain = x.plain := by
  cases x with
  | none => rfl
  | some a => rfl

theorem plain_word? (word : List Char) (j : Json) (cs : List Char) (h : word ≠ []) :
    (word? word j cs h).plain = (dropWord? word cs).map fun r => (j, r) := by
  unfold word?
  split <;> simp_all [Reading.plain]

def front? : List Char → Option (Json × List Char)
  | [] => none
  | '"' :: rest =>
    (textParts? rest).map fun (parts, r) => (.text ((assemble? parts).map String.ofList), r)
  | '[' :: rest =>
    match sign? ']' rest with
    | some r => some (.array [], r)
    | none => (items? rest).plain.map fun (js, r) => (.array js, r)
  | '\x7b' :: rest =>
    match sign? '\x7d' rest with
    | some r => some (.object [], r)
    | none => (members? rest).plain.map fun (ms, r) => (.object ms, r)
  | 'n' :: rest => (dropWord? "null".toList ('n' :: rest)).map fun r => (.null, r)
  | 't' :: rest => (dropWord? "true".toList ('t' :: rest)).map fun r => (.bool true, r)
  | 'f' :: rest => (dropWord? "false".toList ('f' :: rest)).map fun r => (.bool false, r)
  | c :: rest => (number? (c :: rest)).map fun (ds, r) => (.number ds, r)

theorem plain_value? (cs : List Char) : (value? cs).plain = front? (skipSpaces cs) := by
  rw [value?]
  -- One case for each kind of document, told apart by its first character.
  split
  all_goals
    rename_i hs
    refine Eq.trans ?_ (congrArg front? hs).symm
    unfold front?
  · rfl
  · split <;> simp_all [Reading.plain]
  · split
    · simp_all [Reading.plain]
    · split <;> simp_all [Reading.plain]
  · split
    · simp_all [Reading.plain]
    · split <;> simp_all [Reading.plain]
  · exact (plain_weaken _ _).trans (plain_word? _ _ _ _)
  · exact (plain_weaken _ _).trans (plain_word? _ _ _ _)
  · exact (plain_weaken _ _).trans (plain_word? _ _ _ _)
  · split <;> simp_all [Reading.plain]

theorem plain_items? (cs : List Char) : (items? cs).plain =
    (value? cs).plain.bind fun (j, r) =>
      match sign? ',' r with
      | some t => (items? t).plain.map fun (js, u) => (j :: js, u)
      | none => (sign? ']' r).map fun t => ([j], t) := by
  rw [items?]
  split
  · simp_all [Reading.plain]
  · split
    · split <;> simp_all [Reading.plain]
    · split <;> simp_all [Reading.plain]

def member? (cs : List Char) : Option ((Option String × Json) × List Char) :=
  (sign? '"' cs).bind fun r => (textParts? r).bind fun (parts, t) =>
    (sign? ':' t).bind fun u => (value? u).plain.map fun (j, v) =>
      (((assemble? parts).map String.ofList, j), v)

theorem plain_members? (cs : List Char) : (members? cs).plain =
    (member? cs).bind fun (m, r) =>
      match sign? ',' r with
      | some t => (members? t).plain.map fun (ms, u) => (m :: ms, u)
      | none => (sign? '\x7d' r).map fun t => ([m], t) := by
  rw [members?]
  unfold member?
  split
  · simp_all [Reading.plain]
  · split
    · simp_all [Reading.plain]
    · split
      · simp_all [Reading.plain]
      · split
        · simp_all [Reading.plain]
        · split
          · split <;> simp_all [Reading.plain]
          · split <;> simp_all [Reading.plain]

theorem read?_eq (s : String) : read? s =
    (value? s.toList).plain.bind fun (j, rest) => if skipSpaces rest = [] then some j else none := by
  unfold read?
  split <;> simp_all [Reading.plain]

end Equations

section Signs

variable {c d : Char} {blanks cs rest : List Char}

theorem skipSpaces_append (h : ∀ c ∈ blanks, isSpace c) (cs : List Char) :
    skipSpaces (blanks ++ cs) = skipSpaces cs :=
  List.dropWhile_append_of_pos h

theorem skipSpaces_cons (h : isSpace c = false) : skipSpaces (c :: cs) = c :: cs :=
  List.dropWhile_cons_of_neg (by rw [h]; exact Bool.false_ne_true)

theorem sign?_append (hblanks : ∀ c ∈ blanks, isSpace c) (hd : isSpace d = false) :
    sign? c (blanks ++ d :: rest) = if c = d then some rest else none := by
  rw [sign?, skipSpaces_append hblanks, skipSpaces_cons hd]
  rfl

/-- Blanks before a document are passed over. -/
theorem plain_value?_append (hblanks : ∀ c ∈ blanks, isSpace c) (cs : List Char) :
    (value? (blanks ++ cs)).plain = (value? cs).plain := by
  rw [plain_value?, plain_value?, skipSpaces_append hblanks]

end Signs

section Texts

theorem hexDigit?_digitChar : ∀ d < 16, hexDigit? (Nat.digitChar d) = some d := by
  decide

theorem fourHexDigits?_of_lt {n : Nat} (hn : n < 256) :
    fourHexDigits? '0' '0' (Nat.digitChar (n / 16)) (Nat.digitChar (n % 16)) = some n := by
  have hzero : hexDigit? '0' = some 0 := by decide
  have hhigh := hexDigit?_digitChar (n / 16) (by omega)
  have hlow := hexDigit?_digitChar (n % 16) (by omega)
  have hsum : ((0 * 16 + 0) * 16 + n / 16) * 16 + n % 16 = n := by omega
  rw [fourHexDigits?, hzero, hhigh, hlow]
  exact congrArg some hsum

theorem twoHexDigits_of_lt {n : Nat} (hn : n < 256) :
    twoHexDigits n = [Nat.digitChar (n / 16), Nat.digitChar (n % 16)] := by
  have hhigh : n / 16 % 16 = n / 16 := by omega
  rw [twoHexDigits, hhigh, Nat.toDigits_of_lt_base (by omega), Nat.toDigits_of_lt_base (by omega)]
  rfl

theorem textParts?_short {c e : Char} (h : shortEscape? c = some e) (hc : c ≠ 'u')
    (rest : List Char) : textParts? ('\\' :: c :: rest) =
      (textParts? rest).map fun (parts, r) => (.char e :: parts, r) := by
  rw [textParts?, h]
  · cases textParts? rest <;> rfl
  · -- The one escape of six characters begins with a `u`.
    intro a b c' d rest' hu
    exact fun _ => hc hu

theorem textParts?_unit {a b c d : Char} {n : Nat} (h : fourHexDigits? a b c d = some n)
    (rest : List Char) : textParts? ('\\' :: 'u' :: a :: b :: c :: d :: rest) =
      (textParts? rest).map fun (parts, r) => (.unit n :: parts, r) := by
  rw [textParts?, h]
  cases textParts? rest <;> rfl

theorem textParts?_char {c : Char} (hquote : c ≠ '"') (hslash : c ≠ '\\') (hc : ¬ c.toNat < 32)
    (rest : List Char) : textParts? (c :: rest) =
      (textParts? rest).map fun (parts, r) => (.char c :: parts, r) := by
  rw [textParts?, if_neg hc]
  · cases textParts? rest <;> rfl
  · exact hquote
  · exact fun _ _ _ _ _ h => absurd h hslash
  · exact fun _ _ h => absurd h hslash

/-- A unit below the surrogates is a character, whatever follows it. -/
theorem assemble?_unit {n : Nat} (hn : n < 0xd800) (parts : List TextPart) :
    assemble? (.unit n :: parts) = (assemble? parts).map (Char.ofNat n :: ·) := by
  have hlow : ¬ (0xd800 ≤ n ∧ n < 0xe000) := by omega
  have hfirst : ¬ (0xd800 ≤ n ∧ n < 0xdc00) := by omega
  have hsecond : ¬ (0xdc00 ≤ n ∧ n < 0xe000) := by omega
  rw [assemble?.eq_def (.unit n :: parts)]
  -- What follows would matter only for the first half of a surrogate pair.
  rcases parts with _ | ⟨c | m, parts⟩
  · exact if_neg hlow
  · exact if_neg hlow
  · exact (if_neg hfirst).trans (if_neg hsecond)

/-- A character inside a text is read as one part, which stands for this character. -/
theorem exists_part (c : Char) : ∃ part,
    (∀ rest, textParts? (escapeChar c ++ rest) =
      (textParts? rest).map fun (parts, r) => (part :: parts, r)) ∧
    ∀ parts, assemble? (part :: parts) = (assemble? parts).map (c :: ·) := by
  have hchar (e : Char) (parts : List TextPart) :
      assemble? (.char e :: parts) = (assemble? parts).map (e :: ·) := by rw [assemble?]
  unfold escapeChar
  -- Seven characters have an escape of two characters. All others are written as they are, or by
  -- their code if they are control characters.
  split
  case h_8 hquote hslash _ _ _ _ _ =>
    split
    · rename_i hcontrol
      refine ⟨.unit c.toNat, ?_, ?_⟩
      · intro rest
        rw [twoHexDigits_of_lt (by omega)]
        exact textParts?_unit (fourHexDigits?_of_lt (by omega)) rest
      · intro parts
        rw [assemble?_unit (by omega), Char.ofNat_toNat]
    · rename_i hvisible
      exact ⟨.char c, textParts?_char hquote hslash hvisible, hchar c⟩
  all_goals exact ⟨.char _, textParts?_short rfl (by decide), hchar _⟩

/-- By induction on the text: each of its characters is one part. -/
theorem exists_textParts? (s rest : List Char) : ∃ parts,
    textParts? (s.flatMap escapeChar ++ '"' :: rest) = some (parts, rest) ∧
      assemble? parts = some s := by
  induction s with
  | nil =>
    refine ⟨[], ?_, ?_⟩
    · rw [List.flatMap_nil, List.nil_append, textParts?]
    · rw [assemble?]
  | cons c s ih =>
    obtain ⟨parts, hparts, hs⟩ := ih
    obtain ⟨part, hread, hpart⟩ := exists_part c
    refine ⟨part :: parts, ?_, ?_⟩
    · rw [List.flatMap_cons, List.append_assoc, hread, hparts]
      rfl
    · rw [hpart, hs]
      rfl

end Texts

section Numbers

variable {n : Nat} {rest : List Char}

def EndsNumber (rest : List Char) : Prop :=
  ∀ c ∈ rest.head?, isDigit c = false ∧ c ∉ ['.', 'e', 'E']

theorem places?_of_ends (h : EndsNumber rest) : places? rest = some ([], rest) := by
  unfold places?
  split
  · exact absurd (by decide) (h '.' rfl).2
  · rfl

theorem power?_of_ends (h : EndsNumber rest) : power? rest = some ([], rest) := by
  unfold power?
  split
  · rename_i c rest'
    have hc := (h c rfl).2
    rw [if_neg]
    rintro (rfl | rfl)
    · exact hc (by decide)
    · exact hc (by decide)
  · rfl

theorem digits?_of_run {ds : List Char} (hne : ds ≠ []) (hds : ∀ c ∈ ds, isDigit c)
    (h : EndsNumber rest) : digits? (ds ++ rest) = some (ds, rest) := by
  have hends : ∀ c ∈ rest.head?, isDigit c = false := fun c hc => (h c hc).1
  rw [digits?, takeWhile_run hds hends, dropWhile_run hds hends]
  cases ds with
  | nil => exact absurd rfl hne
  | cons d ds => rfl

/-- The whole part of a number has no leading zero, unless it is zero. -/
theorem whole?_decimal (n : Nat) (h : EndsNumber rest) :
    whole? (Nat.toDigits 10 n ++ rest) = some (Nat.toDigits 10 n, rest) := by
  rcases Nat.eq_zero_or_pos n with rfl | hn
  · have hhead : ((rest.head?.map isDigit).getD false) = false := by
      cases rest with
      | nil => rfl
      | cons c rest => exact (h c rfl).1
    rw [Nat.toDigits_zero, List.singleton_append, whole?, hhead, if_neg Bool.false_ne_true]
  · -- The first digit is no zero, so the whole run of digits is read.
    have hdigits := digits?_of_run (Nat.toDigits_ne_nil (b := 10) (n := n))
      (fun c hc => isDigit_of_mem_decimal hc) h
    obtain ⟨d, ds, hds, -⟩ := exists_decimal_eq n
    have hd : d ≠ '0' := by
      have hhead := head?_decimal_ne hn
      rw [hds] at hhead
      exact fun heq => hhead (congrArg some heq)
    rw [hds, List.cons_append] at hdigits ⊢
    rw [← hdigits, whole?.eq_def]
    split
    · rename_i heq
      exact absurd (List.cons.inj heq).1 hd
    · rfl

theorem unsigned?_decimal (n : Nat) (h : EndsNumber rest) :
    unsigned? (Nat.toDigits 10 n ++ rest) = some (Nat.toDigits 10 n, rest) := by
  simp only [unsigned?, whole?_decimal n h, places?_of_ends h, power?_of_ends h,
    Option.bind_eq_bind, Option.bind_some, List.append_nil]
  rfl

theorem number?_decimal (n : Nat) (h : EndsNumber rest) :
    number? (Nat.toDigits 10 n ++ rest) = some (Nat.toDigits 10 n, rest) := by
  rw [← unsigned?_decimal n h, number?.eq_def]
  split
  · rename_i heq
    obtain ⟨d, ds, hds, hd⟩ := exists_decimal_eq n
    rw [hds, List.cons_append] at heq
    obtain rfl := (List.cons.inj heq).1
    exact absurd hd (by decide)
  · rfl

end Numbers

end SqlMapper.Json
