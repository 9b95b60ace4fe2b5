import SqlMapper.Proofs.Expr.Scanning

/-!
Writing tokens down, and reading them off again. With blanks between two tokens each of them is read
as it was written, whatever stands around it.
-/

namespace SqlMapper.Expr

open Text

section Literals

variable {quote c : Char} {s rest : List Char}

def escapeChar (quote c : Char) : List Char :=
  if c = '\\' ∨ c = quote then ['\\', c] else [c]

def literal (quote : Char) (s : String) : List Char :=
  quote :: s.toList.flatMap (escapeChar quote) ++ [quote]

theorem textLiteral?_escaped (quote c : Char) (rest : List Char) :
    textLiteral? quote ('\\' :: c :: rest) =
      (textLiteral? quote rest).map fun (cs, r) => (c :: cs, r) := by
  rw [textLiteral?]

theorem textLiteral?_plain (hc : c ≠ '\\') (quote : Char) (rest : List Char) :
    textLiteral? quote (c :: rest) =
      if c = quote then some ([], rest)
      else (textLiteral? quote rest).map fun (cs, r) => (c :: cs, r) := by
  rw [textLiteral?.eq_def]
  split <;> simp_all

theorem textLiteral?_escapeChar (quote c : Char) (rest : List Char) :
    textLiteral? quote (escapeChar quote c ++ rest) =
      (textLiteral? quote rest).map fun (cs, r) => (c :: cs, r) := by
  unfold escapeChar
  split
  · exact textLiteral?_escaped quote c rest
  · rename_i hplain
    rw [not_or] at hplain
    rw [List.singleton_append, textLiteral?_plain hplain.1, if_neg hplain.2]

theorem textLiteral?_written (hquote : quote ≠ '\\') (s rest : List Char) :
    textLiteral? quote (s.flatMap (escapeChar quote) ++ quote :: rest) = some (s, rest) := by
  induction s with
  | nil =>
    rw [List.flatMap_nil, List.nil_append, textLiteral?_plain hquote, if_pos rfl]
  | cons c s ih =>
    rw [List.flatMap_cons, List.append_assoc, textLiteral?_escapeChar, ih]
    rfl

end Literals

section Numbers

variable {digits rest : List Char}

theorem continuesNumber_of_isDigit {c : Char} (h : isDigit c) : continuesNumber c := by
  rw [continuesNumber, h]
  rfl

theorem split_of_notMem {separator : Char} {cs : List Char} (h : separator ∉ cs) :
    split separator cs = [cs] := by
  induction cs with
  | nil => rfl
  | cons c cs ih =>
    rw [List.mem_cons, not_or] at h
    rw [split, if_neg (Ne.symm h.1), ih h.2]

/-- Digits without a point are a whole number, which must be in range. -/
theorem numberToken_of_numeral? {n : Nat} (hdigits : numeral? digits = some n) :
    numberToken digits =
      if n < Nat.pow 2 63 then .ok (.int (.ofNat n)) else .error (.invalidNumber (.ofList digits)) := by
  obtain ⟨-, hall, hvalue⟩ := numeral?_eq_some.mp hdigits
  -- With a point among them they would be a float.
  have hpoint : '.' ∉ digits := fun hmem => absurd (hall _ hmem) (by decide)
  rw [numberToken, split_of_notMem hpoint]
  dsimp only
  rw [hvalue]

end Numbers

inductive Token.Written : Token → List Char → Prop where
  /-- A name is any word but an operator. -/
  | name {s : String} (hword : IsWord s.toList) (hfree : s ∉ operatorWords) :
    Written (.name s) s.toList
  | int {i : Int64} {digits : List Char} {n : Nat} (hdigits : numeral? digits = some n)
    (hi : i.toInt = n) : Written (.int i) digits
  | text {quote : Char} (hquote : quote = '\'' ∨ quote = '"') (s : String) :
    Written (.text s) (literal quote s)
  | sign (c : Comparison) : Written (.op c) c.sign.toList
  | word (c : Comparison) : Written (.op c) c.word.toList
  | andSign : Written .and "&&".toList
  | andWord : Written .and "and".toList
  | orSign : Written .or "||".toList
  | orWord : Written .or "or".toList
  | notSign : Written .not "!".toList
  | notWord : Written .not "not".toList
  | minus : Written .minus "-".toList
  | opening : Written .opening "(".toList
  | closing : Written .closing ")".toList

/-- The usual way to write an integer. -/
theorem Token.Written.decimal {i : Int64} (h : 0 ≤ i.toInt) :
    Token.Written (.int i) (Nat.toDigits 10 i.toInt.toNat) :=
  .int (numeral?_decimal _) (Int.toNat_of_nonneg h).symm

/-- Tokens in a row: each is followed by a blank or by the end, and any more blanks can stand
anywhere around the tokens. -/
inductive Written : List Token → List Char → Prop where
  | nil : Written [] []
  | blank {ts : List Token} {c : Char} {cs : List Char} (hc : isBlank c) (hcs : Written ts cs) :
    Written ts (c :: cs)
  | token {t : Token} {ts : List Token} {cs rest : List Char} (ht : t.Written cs)
    (hends : ∀ c ∈ rest.head?, isBlank c) (hrest : Written ts rest) : Written (t :: ts) (cs ++ rest)

namespace Written

variable {t : Token} {ts : List Token} {c : Char} {cs rest : List Char}

theorem last (ht : t.Written cs) : Written [t] cs := by
  rw [← List.append_nil cs]
  exact .token ht nofun .nil

theorem spaced (ht : t.Written cs) (hc : isBlank c) (hrest : Written ts rest) :
    Written (t :: ts) (cs ++ c :: rest) := by
  apply Written.token ht
  · rintro d ⟨⟩
    exact hc
  · exact .blank hc hrest

end Written

section Reading

variable {size : Nat} {rest : List Char} (hends : ∀ c ∈ rest.head?, isBlank c)

include hends

theorem endsWord_of_blank : EndsWord rest :=
  fun c hc => continuesName_of_isBlank (hends c hc)

theorem head?_ne_of_blank {c : Char} (hc : isBlank c = false) : rest.head? ≠ some c := by
  intro hhead
  rw [hends c hhead] at hc
  exact nomatch hc

theorem tokensFrom_name {s : String} (hword : IsWord s.toList) (hfree : s ∉ operatorWords) :
    tokensFrom size (s.toList ++ rest) = (tokensFrom size rest).map (.name s :: ·) := by
  rw [tokensFrom_word hword (endsWord_of_blank hends), String.ofList_toList,
    wordToken_of_notMem hfree]

omit hends in
/-- A run of digits is read as a number, or fails as one. -/
theorem tokensFrom_digits {digits : List Char} {n : Nat}
    (hends : ∀ c ∈ rest.head?, continuesNumber c = false) (hdigits : numeral? digits = some n) :
    tokensFrom size (digits ++ rest) =
      (numberToken digits).bind fun t => (tokensFrom size rest).map (t :: ·) := by
  obtain ⟨hne, hall, -⟩ := numeral?_eq_some.mp hdigits
  obtain ⟨d, ds, rfl⟩ := List.exists_cons_of_ne_nil hne
  obtain ⟨hd, hds⟩ := List.forall_mem_cons.mp hall
  -- The first digit decides how the token is read: it is no blank, begins no sign and is no quote.
  have hbounds := isDigit_iff.mp hd
  have hblank : isBlank d = false := by
    have hcodes : ∀ n ∈ blankCodes, ¬ (48 ≤ n ∧ n ≤ 57) := by decide
    exact Bool.eq_false_iff.mpr fun h => hcodes _ (toNat_mem_blankCodes h) hbounds
  have hsign : d ∉ signStarts := notMem_of_all_not hd (by decide)
  have hquote : ¬ (d = '\'' ∨ d = '"') := by
    rintro (rfl | rfl)
    · exact absurd hd (by decide)
    · exact absurd hd (by decide)
  have hrun : ∀ c ∈ ds, continuesNumber c := fun c hc => continuesNumber_of_isDigit (hds c hc)
  rw [List.cons_append, tokensFrom_cons, if_neg (by simp [hblank]), token_eq_longToken hsign,
    longToken, if_neg hquote, if_pos hd, takeWhile_run hrun hends, dropWhile_run hrun hends]
  cases numberToken (d :: ds) <;> rfl

omit hends in
theorem tokensFrom_int {i : Int64} {digits : List Char} {n : Nat}
    (hends : ∀ c ∈ rest.head?, continuesNumber c = false) (hdigits : numeral? digits = some n)
    (hi : i.toInt = n) :
    tokensFrom size (digits ++ rest) = (tokensFrom size rest).map (.int i :: ·) := by
  have hbound : n < Nat.pow 2 63 := by
    have hlt := i.toInt_lt
    change n < 2 ^ 63
    omega
  have hint : Int64.ofNat n = i := by
    rw [← Int64.ofInt_eq_ofNat, ← hi, Int64.ofInt_toInt]
  rw [tokensFrom_digits hends hdigits, numberToken_of_numeral? hdigits, if_pos hbound, hint]
  rfl

omit hends in
theorem tokensFrom_text {quote : Char} (hquote : quote = '\'' ∨ quote = '"') (s : String) :
    tokensFrom size (literal quote s ++ rest) = (tokensFrom size rest).map (.text s :: ·) := by
  have hblank : isBlank quote = false := by rcases hquote with rfl | rfl <;> decide
  have hsign : quote ∉ signStarts := by rcases hquote with rfl | rfl <;> decide
  have hslash : quote ≠ '\\' := by rcases hquote with rfl | rfl <;> decide
  rw [literal, List.cons_append, List.cons_append, List.append_assoc, List.singleton_append]
  apply tokensFrom_of_token hblank
  intro offset
  rw [token_eq_longToken hsign, longToken, if_pos hquote, textLiteral?_written hslash]
  dsimp only
  rw [String.ofList_toList]

theorem tokensFrom_bang : tokensFrom size ('!' :: rest) = (tokensFrom size rest).map (.not :: ·) := by
  -- An equals sign behind it would make `!=` of it.
  have hhead : rest.head? ≠ some '=' := head?_ne_of_blank hends (by decide)
  exact tokensFrom_of_token (by decide) fun _ => token_bang hhead

/-- A written token is read off the front of a text if a blank or nothing follows it. -/
theorem Token.Written.tokensFrom_append {t : Token} {cs : List Char} (h : t.Written cs) :
    tokensFrom size (cs ++ rest) = (tokensFrom size rest).map (t :: ·) := by
  have hoperator {s : String} (hs : s ∈ operatorWords) :
      tokensFrom size (s.toList ++ rest) = (tokensFrom size rest).map (wordToken s :: ·) := by
    rw [tokensFrom_word (isWord_of_mem_operatorWords hs) (endsWord_of_blank hends),
      String.ofList_toList]
  cases h with
  | name hs hfree => exact tokensFrom_name hends hs hfree
  | int hdigits hi => exact tokensFrom_int (endsWord_of_blank hends).endsNumber hdigits hi
  | text hquote s => exact tokensFrom_text hquote s
  | sign c => exact tokensFrom_sign c (head?_ne_of_blank hends (by decide))
  | word c =>
    rw [← wordToken_word c]
    exact hoperator (word_mem_operatorWords c)
  | andWord | orWord | notWord => exact hoperator (by decide)
  | notSign => exact tokensFrom_bang hends
  | andSign | orSign | minus | opening | closing =>
    exact tokensFrom_of_token (by decide) fun _ => rfl

end Reading

/-- Whatever tokens are written in a row, with at least one blank between any two, reading gives
exactly these tokens. By induction on the row: each token is taken off its front as a whole. -/
theorem tokens_written {ts : List Token} {text : String} (h : Written ts text.toList) :
    tokens text = .ok ts := by
  have hfrom (size : Nat) {ts : List Token} {cs : List Char} (h : Written ts cs) :
      tokensFrom size cs = .ok ts := by
    induction h with
    | nil => exact tokensFrom_nil
    | blank hc _ ih => rw [tokensFrom_cons, if_pos hc, ih]
    | token ht hends _ ih =>
      rw [ht.tokensFrom_append hends, ih]
      rfl
  exact hfrom text.length h

/-- Neighbours of every kind, with the greatest integer and a text with its own quote in it. -/
theorem tokens_written_owner :
    tokens "not ( owner eq 'it\\'s' ) &&\n9223372036854775807 >= - x.y" =
      .ok [.not, .opening, .name "owner", .op .eq, .text "it's", .closing, .and,
        .int 9223372036854775807, .op .ge, .minus, .name "x.y"] := by
  have howner : Token.Written (.name "owner") "owner".toList :=
    .name ⟨'o', "wner".toList, rfl, by decide, List.all_eq_true.mp (by decide)⟩ (by decide)
  have hpath : Token.Written (.name "x.y") "x.y".toList :=
    .name ⟨'x', ".y".toList, rfl, by decide, List.all_eq_true.mp (by decide)⟩ (by decide)
  have hgreatest : Token.Written (.int 9223372036854775807) (Nat.toDigits 10 9223372036854775807) :=
    .decimal (by decide)
  have hspace : isBlank ' ' := by decide
  have hrow : Written _ _ :=
    .spaced .notWord hspace <| .spaced .opening hspace <| .spaced howner hspace <|
    .spaced (.word .eq) hspace <| .spaced (.text (.inl rfl) "it's") hspace <|
    .spaced .closing hspace <| .spaced .andSign (c := '\n') (by decide) <|
    .spaced hgreatest hspace <| .spaced (.sign .ge) hspace <| .spaced .minus hspace <| .last hpath
  exact tokens_written hrow

end SqlMapper.Expr
