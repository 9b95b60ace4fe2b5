import SqlMapper.Expr.Token
import SqlMapper.Proofs.Text.Numerals

/-!
Reading tokens off a text that is put together from written tokens. Blanks between tokens are passed
over, and a word is read as a whole if what follows cannot go on in it.
-/

namespace SqlMapper.Expr

open Text

section Characters

variable {c : Char}

def blankCodes : List Nat :=
  [0x09, 0x0a, 0x0b, 0x0c, 0x0d, 0x20, 0x85, 0xa0, 0x1680, 0x2000, 0x2001, 0x2002, 0x2003, 0x2004,
    0x2005, 0x2006, 0x2007, 0x2008, 0x2009, 0x200a, 0x2028, 0x2029, 0x202f, 0x205f, 0x3000]

theorem toNat_mem_blankCodes (h : isBlank c) : c.toNat ∈ blankCodes := by
  simp only [isBlank, Bool.or_eq_true, Bool.and_eq_true, decide_eq_true_eq, beq_iff_eq] at h
  simp only [blankCodes, List.mem_cons, List.not_mem_nil, or_false]
  omega

/-- A word ends at a blank. -/
theorem continuesName_of_isBlank (h : isBlank c) : continuesName c = false := by
  have hcodes : ∀ n ∈ blankCodes, inRanges alphabeticRanges n = false ∧
      inRanges numericRanges n = false ∧ n ≠ '_'.toNat ∧ n ≠ '.'.toNat := by decide +kernel
  obtain ⟨hletter, hnumber, hline, hpoint⟩ := hcodes _ (toNat_mem_blankCodes h)
  have hne {d : Char} (hd : c.toNat ≠ d.toNat) : (c == d) = false :=
    beq_eq_false_iff_ne.mpr fun heq => hd (heq ▸ rfl)
  simp only [continuesName, isAlphanumeric, isAlphabetic, hletter, hnumber, hne hline, hne hpoint,
    Bool.or_self]

theorem continuesName_of_startsName (h : startsName c) : continuesName c := by
  rw [startsName, Bool.or_eq_true] at h
  rw [continuesName, isAlphanumeric]
  rcases h with hletter | hline
  · rw [hletter]
    rfl
  · rw [hline, Bool.or_true]
    rfl

theorem continuesName_of_isDigit (h : isDigit c) : continuesName c := by
  have hcodes : ∀ n < 58, 48 ≤ n → inRanges numericRanges n := by decide
  obtain ⟨hlow, hhigh⟩ := isDigit_iff.mp h
  have hnumber : inRanges numericRanges c.toNat := hcodes _ (by omega) hlow
  rw [continuesName, isAlphanumeric, hnumber, Bool.or_true]
  rfl

/-- Whatever can go on in a number can go on in a name. -/
theorem continuesName_of_continuesNumber (h : continuesNumber c) : continuesName c := by
  rw [continuesNumber, Bool.or_eq_true] at h
  rcases h with hdigit | hpoint
  · exact continuesName_of_isDigit hdigit
  · rw [continuesName, hpoint, Bool.or_true]

theorem isBlank_of_startsName (h : startsName c) : isBlank c = false := by
  refine Bool.eq_false_iff.mpr fun hblank => ?_
  have hends := continuesName_of_isBlank hblank
  rw [continuesName_of_startsName h] at hends
  exact nomatch hends

/-- The letters lie above the digits. -/
theorem isDigit_of_startsName (h : startsName c) : isDigit c = false := by
  refine Bool.eq_false_iff.mpr fun hdigit => ?_
  have hbounds : 48 ≤ c.toNat ∧ c.toNat ≤ 57 := isDigit_iff.mp hdigit
  have hletter : inRanges alphabeticRanges c.toNat = false := by
    have hfirst : inRanges alphabeticRanges c.toNat = decide (0x41 ≤ c.toNat) := if_pos (by omega)
    rw [hfirst]
    exact decide_eq_false (by omega)
  have hline : (c == '_') = false := by
    refine beq_eq_false_iff_ne.mpr ?_
    rintro rfl
    exact absurd hbounds (by decide)
  simp only [startsName, isAlphabetic, hletter, hline, Bool.or_self, Bool.false_eq_true] at h

end Characters

/-! Tokens at the front of a text. -/

section Front

variable {size offset : Nat} {c : Char} {cs rest blanks : List Char} {t : Token}

theorem tokensFrom_nil : tokensFrom size [] = .ok [] := by
  rw [tokensFrom.eq_def]

/-- One step of reading: a blank is passed over, or a token is taken off the front. -/
theorem tokensFrom_cons : tokensFrom size (c :: cs) =
    if isBlank c then tokensFrom size cs
    else (token (size - (cs.length + 1)) c cs).bind fun x =>
      (tokensFrom size x.2).map (x.1 :: ·) := by
  rw [tokensFrom.eq_def]
  dsimp only
  congr 1
  cases token (size - (cs.length + 1)) c cs with
  | error f => rfl
  | ok x => rfl

theorem tokensFrom_blanks (h : ∀ c ∈ blanks, isBlank c) :
    tokensFrom size (blanks ++ rest) = tokensFrom size rest := by
  induction blanks with
  | nil => rfl
  | cons c blanks ih =>
    obtain ⟨hc, hblanks⟩ := List.forall_mem_cons.mp h
    rw [List.cons_append, tokensFrom_cons, if_pos hc, ih hblanks]

theorem tokensFrom_of_token (hc : isBlank c = false)
    (h : ∀ offset, token offset c cs = .ok (t, rest)) :
    tokensFrom size (c :: cs) = (tokensFrom size rest).map (t :: ·) := by
  rw [tokensFrom_cons, if_neg (by rw [hc]; exact Bool.false_ne_true), h]
  rfl

def EndsWord (rest : List Char) : Prop := ∀ c ∈ rest.head?, continuesName c = false

theorem EndsWord.endsNumber (h : EndsWord rest) : ∀ c ∈ rest.head?, continuesNumber c = false := by
  intro c hc
  refine Bool.eq_false_iff.mpr fun hnumber => ?_
  have hends := h c hc
  rw [continuesName_of_continuesNumber hnumber] at hends
  exact nomatch hends

def IsWord (cs : List Char) : Prop :=
  ∃ c others, cs = c :: others ∧ startsName c ∧ ∀ d ∈ others, continuesName d

def signStarts : List Char := ['(', ')', '-', '=', '!', '<', '>', '&', '|']

theorem token_eq_longToken (hc : c ∉ signStarts) : token offset c rest = longToken offset c rest := by
  unfold token
  -- No sign starts with this character, so only the last case is left.
  split
  all_goals first
    | rfl
    | exact absurd (by decide) hc

theorem token_of_startsName (hc : startsName c) (hcs : ∀ d ∈ cs, continuesName d)
    (hrest : EndsWord rest) :
    token offset c (cs ++ rest) = .ok (wordToken (.ofList (c :: cs)), rest) := by
  have hquote : ¬ (c = '\'' ∨ c = '"') := by
    rintro (rfl | rfl)
    · exact absurd hc (by decide)
    · exact absurd hc (by decide)
  have hsign : c ∉ signStarts := notMem_of_all_not hc (by decide)
  rw [token_eq_longToken hsign, longToken, if_neg hquote, isDigit_of_startsName hc,
    if_neg Bool.false_ne_true, if_pos hc, takeWhile_run hcs hrest, dropWhile_run hcs hrest]

theorem tokensFrom_word (h : IsWord cs) (hrest : EndsWord rest) :
    tokensFrom size (cs ++ rest) = (tokensFrom size rest).map (wordToken (.ofList cs) :: ·) := by
  obtain ⟨c, others, rfl, hc, hothers⟩ := h
  exact tokensFrom_of_token (isBlank_of_startsName hc)
    fun offset => token_of_startsName hc hothers hrest

/-- Before anything that a word ends at there can be blanks, and a word ends at a blank in any
case. -/
theorem endsWord_blanks_append (h : ∀ c ∈ blanks, isBlank c)
    (hrest : blanks = [] → EndsWord rest) : EndsWord (blanks ++ rest) := by
  rcases blanks with _ | ⟨c, blanks⟩
  · exact hrest rfl
  · intro d hd
    obtain rfl : c = d := Option.some.inj hd
    exact continuesName_of_isBlank (h c List.mem_cons_self)

end Front

section Words

variable {s : String}

def operatorWords : List String :=
  ["and", "or", "not", "eq", "neq", "lt", "lte", "gt", "gte"]

theorem wordToken_of_notMem (h : s ∉ operatorWords) : wordToken s = .name s := by
  unfold wordToken
  split
  case h_10 => rfl
  all_goals exact absurd (by decide) h

theorem isWord_of_mem_operatorWords (h : s ∈ operatorWords) : IsWord s.toList := by
  simp only [operatorWords, List.mem_cons, List.not_mem_nil, or_false] at h
  rcases h with rfl | rfl | rfl | rfl | rfl | rfl | rfl | rfl | rfl
  all_goals exact ⟨_, _, rfl, by decide, List.all_eq_true.mp (by decide)⟩

end Words

section Comparisons

def Comparison.sign : Comparison → String
  | .eq => "=="
  | .ne => "!="
  | .lt => "<"
  | .le => "<="
  | .gt => ">"
  | .ge => ">="

def Comparison.word : Comparison → String
  | .eq => "eq"
  | .ne => "neq"
  | .lt => "lt"
  | .le => "lte"
  | .gt => "gt"
  | .ge => "gte"

variable {size offset : Nat} {rest : List Char} (c : Comparison)

/-- What can stand between two names that are compared: a sign with or without blanks around it, or
a word with blanks around it. -/
inductive Comparison.Written : String → Prop where
  | sign {before after : String} (hbefore : isBlankText before) (hafter : isBlankText after) :
    Written (before ++ c.sign ++ after)
  | word {before after : String} (hbefore : isBlankText before) (hafter : isBlankText after)
      (hne : before ≠ "") (hne' : after ≠ "") : Written (before ++ c.word ++ after)

theorem token_lt (hrest : rest.head? ≠ some '=') :
    token offset '<' rest = .ok (.op .lt, rest) := by
  unfold token
  split <;> simp_all

theorem token_gt (hrest : rest.head? ≠ some '=') :
    token offset '>' rest = .ok (.op .gt, rest) := by
  unfold token
  split <;> simp_all

theorem token_bang (hrest : rest.head? ≠ some '=') :
    token offset '!' rest = .ok (.not, rest) := by
  unfold token
  split <;> simp_all

/-- A sign is read as a whole unless an equals sign follows, which would make `<=` of `<`. -/
theorem tokensFrom_sign (hrest : rest.head? ≠ some '=') :
    tokensFrom size (c.sign.toList ++ rest) = (tokensFrom size rest).map (.op c :: ·) := by
  cases c with
  | lt => exact tokensFrom_of_token (c := '<') (by decide) fun _ => token_lt hrest
  | gt => exact tokensFrom_of_token (c := '>') (by decide) fun _ => token_gt hrest
  | _ => exact tokensFrom_of_token (by decide) fun _ => rfl

theorem word_mem_operatorWords : c.word ∈ operatorWords := by
  cases c <;> decide

theorem wordToken_word : wordToken c.word = .op c := by
  cases c <;> rfl

theorem endsWord_sign_append : EndsWord (c.sign.toList ++ rest) := by
  cases c <;> exact fun d hd => by cases hd; decide

def reserved : List String :=
  ["and", "or", "not", "eq", "neq", "lt", "lte", "gt", "gte", "null", "true", "false"]

structure IsName (s : String) : Prop where
  word : IsWord s.toList
  free : s ∉ reserved

theorem IsName.wordToken_eq {s : String} (h : IsName s) : wordToken s = .name s := by
  apply wordToken_of_notMem
  intro hmem
  exact h.free (List.mem_append_left ["null", "true", "false"] hmem)

theorem IsName.tokensFrom_append {s : String} (h : IsName s) (hrest : EndsWord rest) :
    tokensFrom size (s.toList ++ rest) = (tokensFrom size rest).map (.name s :: ·) := by
  rw [tokensFrom_word h.word hrest, String.ofList_toList, h.wordToken_eq]

variable {c} {x y op : String}

theorem forall_isBlank_of_isBlankText {s : String} (h : isBlankText s) :
    ∀ d ∈ s.toList, isBlank d :=
  List.all_eq_true.mp h

theorem Comparison.Written.endsWord_append (h : c.Written op) :
    EndsWord (op.toList ++ rest) := by
  cases h with
  | sign hbefore =>
    rw [String.toList_append, String.toList_append, List.append_assoc, List.append_assoc]
    exact endsWord_blanks_append (forall_isBlank_of_isBlankText hbefore)
      fun _ => endsWord_sign_append c
  | word hbefore _ hne =>
    rw [String.toList_append, String.toList_append, List.append_assoc, List.append_assoc]
    exact endsWord_blanks_append (forall_isBlank_of_isBlankText hbefore)
      fun hnil => absurd (String.toList_eq_nil_iff.mp hnil) hne

theorem head?_ne_of_isWord (h : IsWord rest) : rest.head? ≠ some '=' := by
  obtain ⟨d, others, rfl, hd, -⟩ := h
  intro hhead
  obtain rfl : d = '=' := Option.some.inj hhead
  exact absurd hd (by decide)

theorem head?_blanks_append_ne {blanks : List Char} (h : ∀ d ∈ blanks, isBlank d)
    (hrest : rest.head? ≠ some '=') : (blanks ++ rest).head? ≠ some '=' := by
  rcases blanks with _ | ⟨d, blanks⟩
  · exact hrest
  · intro hhead
    obtain rfl : d = '=' := Option.some.inj hhead
    exact absurd (h _ List.mem_cons_self) (by decide)

/-- A written comparison is read as the comparison unless an equals sign follows. -/
theorem Comparison.Written.tokensFrom_append (h : c.Written op) (hrest : rest.head? ≠ some '=') :
    tokensFrom size (op.toList ++ rest) = (tokensFrom size rest).map (.op c :: ·) := by
  cases h with
  | @sign before after hbefore hafter =>
    have hblanks := forall_isBlank_of_isBlankText hafter
    rw [String.toList_append, String.toList_append, List.append_assoc, List.append_assoc,
      tokensFrom_blanks (forall_isBlank_of_isBlankText hbefore),
      tokensFrom_sign c (head?_blanks_append_ne hblanks hrest), tokensFrom_blanks hblanks]
  | @word before after hbefore hafter _ hne =>
    have hblanks := forall_isBlank_of_isBlankText hafter
    have hends : EndsWord (after.toList ++ rest) :=
      endsWord_blanks_append hblanks fun hnil => absurd (String.toList_eq_nil_iff.mp hnil) hne
    have hword := isWord_of_mem_operatorWords (word_mem_operatorWords c)
    rw [String.toList_append, String.toList_append, List.append_assoc, List.append_assoc,
      tokensFrom_blanks (forall_isBlank_of_isBlankText hbefore), tokensFrom_word hword hends,
      String.ofList_toList, wordToken_word, tokensFrom_blanks hblanks]

theorem tokens_comparison (hx : IsName x) (hop : c.Written op) (hy : IsName y) :
    tokens (x ++ op ++ y) = .ok [.name x, .op c, .name y] := by
  have hlast (size : Nat) : tokensFrom size y.toList = .ok [.name y] := by
    have hend : tokensFrom size (y.toList ++ []) = (tokensFrom size []).map (.name y :: ·) :=
      hy.tokensFrom_append nofun
    rw [List.append_nil] at hend
    rw [hend, tokensFrom_nil]
    rfl
  rw [tokens, String.toList_append, String.toList_append, List.append_assoc,
    hx.tokensFrom_append hop.endsWord_append, hop.tokensFrom_append (head?_ne_of_isWord hy.word), hlast]
  rfl

end Comparisons
end SqlMapper.Expr
