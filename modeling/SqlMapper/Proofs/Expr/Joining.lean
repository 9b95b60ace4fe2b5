import SqlMapper.Proofs.Expr.Grammar
import SqlMapper.Proofs.Expr.Writing

/-!
Reading two texts that stand one behind the other. The tokens of the first one are those that it has
alone, unless the second one goes on where it ends.
-/

namespace SqlMapper.Expr

open Text

/-- Each character of a text literal is read by itself, so nothing behind its end matters. -/
theorem textLiteral?_append {quote : Char} {s cs r : List Char}
    (h : textLiteral? quote s = some (cs, r)) (more : List Char) :
    textLiteral? quote (s ++ more) = some (cs, r ++ more) := by
  have hplain {c : Char} {rest : List Char} (hlone : c = '\\' → rest = [] → False)
      (hslash : ∀ d ds, c = '\\' → rest = d :: ds → False) : c ≠ '\\' := by
    intro hc
    rcases rest with _ | ⟨d, ds⟩
    · exact hlone hc rfl
    · exact hslash d ds hc rfl
  fun_induction textLiteral? quote s generalizing cs r with
  | case1 => cases h
  | case2 => cases h
  | case3 c rest ih =>
    obtain ⟨⟨ds, t⟩, ht, heq⟩ := Option.map_eq_some_iff.mp h
    cases heq
    rw [List.cons_append, List.cons_append, textLiteral?_escaped, ih ht]
    rfl
  | case4 rest hlone hslash =>
    cases h
    rw [List.cons_append, textLiteral?_plain (hplain hlone hslash), if_pos rfl]
  | case5 c rest hlone hslash hne ih =>
    obtain ⟨⟨ds, t⟩, ht, heq⟩ := Option.map_eq_some_iff.mp h
    cases heq
    rw [List.cons_append, textLiteral?_plain (hplain hlone hslash), if_neg hne, ih ht]
    rfl

section

variable {offset offset' size size' : Nat} {c : Char} {t : Token} {cs rest more r : List Char}
  {ts : List Token}

theorem longToken_append (h : longToken offset c rest = .ok (t, r)) (hends : EndsWord more) :
    longToken offset' c (rest ++ more) = .ok (t, r ++ more) := by
  unfold longToken at h ⊢
  split at h
  · rename_i hquote
    rw [if_pos hquote]
    split at h
    · rename_i ds s hliteral
      cases h
      rw [textLiteral?_append hliteral]
    · cases h
  rename_i hquote
  rw [if_neg hquote]
  split at h
  · rename_i hdigit
    rw [if_pos hdigit, takeWhile_append_of_ends hends.endsNumber,
      dropWhile_append_of_ends hends.endsNumber]
    split at h
    · cases h
      rfl
    · cases h
  rename_i hdigit
  rw [if_neg hdigit]
  split at h
  · rename_i hstart
    cases h
    rw [if_pos hstart, takeWhile_append_of_ends hends, dropWhile_append_of_ends hends]
  · cases h

/-- The tokens that an equals sign can make another token of. -/
def openSigns : List Token := [.op .lt, .op .gt, .not]

/-- The first token of a text stays the first one when another text is put behind that does not go
on with it. -/
theorem token_append (h : token offset c rest = .ok (t, r)) (hends : EndsWord more)
    (hjoin : rest = [] → more.head? = some '=' → t ∉ openSigns) :
    token offset' c (rest ++ more) = .ok (t, r ++ more) := by
  have hstays (hnext : ∀ s, rest = '=' :: s → False) (ht : t ∈ openSigns) :
      (rest ++ more).head? ≠ some '=' := by
    rcases rest with _ | ⟨d, rest⟩
    · exact fun hhead => hjoin rfl hhead ht
    · intro hhead
      obtain rfl : d = '=' := Option.some.inj hhead
      exact hnext rest rfl
  by_cases hsign : c ∈ signStarts
  · unfold token at h
    split at h
    case h_7 hnext =>
      cases h
      exact token_bang (hstays hnext (by decide))
    case h_9 hnext =>
      cases h
      exact token_lt (hstays hnext (by decide))
    case h_11 hnext =>
      cases h
      exact token_gt (hstays hnext (by decide))
    -- The last case is that of a character that begins no sign.
    case h_16 =>
      clear hstays hjoin h
      simp_all [signStarts]
    all_goals cases h <;> rfl
  · rw [token_eq_longToken hsign] at h ⊢
    exact longToken_append h hends

section Maps

variable (x : Except Fault (List Token)) (us vs : List Token)

theorem map_nil_append : x.map ([] ++ ·) = x := by
  cases x <;> rfl

theorem map_append_append : (x.map (vs ++ ·)).map (us ++ ·) = x.map (us ++ vs ++ ·) := by
  cases x with
  | error f => rfl
  | ok ts => exact congrArg Except.ok (List.append_assoc us vs ts).symm

theorem map_cons_append : (x.map (us ++ ·)).map (t :: ·) = x.map (t :: us ++ ·) :=
  map_append_append x [t] us

end Maps

/-- By induction on the length of the first text: each of its tokens is taken off the front as if
nothing followed it. -/
theorem tokensFrom_append (h : tokensFrom size cs = .ok ts) (hends : EndsWord more)
    (hjoin : more.head? = some '=' → ∀ t ∈ ts.getLast?, t ∉ openSigns) :
    tokensFrom size' (cs ++ more) = (tokensFrom size' more).map (ts ++ ·) := by
  induction hn : cs.length using Nat.strongRecOn generalizing cs ts with
  | ind n ih =>
  rcases cs with _ | ⟨c, cs⟩
  · rw [tokensFrom_nil] at h
    cases h
    rw [List.nil_append, map_nil_append]
  rw [List.length_cons] at hn
  rw [tokensFrom_cons] at h
  rw [List.cons_append, tokensFrom_cons]
  by_cases hblank : isBlank c = true
  · rw [if_pos hblank] at h ⊢
    exact ih cs.length (by omega) h hjoin rfl
  rw [if_neg hblank] at h ⊢
  obtain ⟨⟨t, r⟩, htoken, hrest⟩ := bind_ok h
  obtain ⟨us, hus, rfl⟩ := map_ok hrest
  have hle : r.length ≤ cs.length := token_length htoken
  have hlast : cs = [] → more.head? = some '=' → t ∉ openSigns := by
    rintro rfl hhead
    -- With nothing behind it, the token is the last one.
    obtain rfl : r = [] := List.eq_nil_of_length_eq_zero (Nat.le_zero.mp hle)
    rw [tokensFrom_nil] at hus
    cases hus
    exact hjoin hhead t rfl
  have hothers : more.head? = some '=' → ∀ u ∈ us.getLast?, u ∉ openSigns := by
    intro hhead u hu
    apply hjoin hhead u
    rw [List.getLast?_cons, Option.mem_def.mp hu]
    rfl
  rw [token_append htoken hends hlast]
  dsimp only [Except.bind]
  rw [ih r.length (by omega) hus hothers rfl, map_cons_append]

end

def IsOperand (s : String) (e : Tree) : Prop :=
  ∃ ts, tokens s = .ok ts ∧ Derives .primary ts e

section

variable {size : Nat} {s : String} {e : Tree} {rest : List Char}

theorem Derives.getLast?_primary {ts : List Token} (h : Derives .primary ts e) :
    ∀ t ∈ ts.getLast?, t ∉ openSigns := by
  cases h with
  | grouped inner =>
    intro t ht
    rw [List.getLast?_concat] at ht
    cases ht
    decide
  | _ =>
    intro t ht
    cases ht
    simp [openSigns]

/-- An operand is read in front of everything that cannot go on in a word: it does not end in a sign
that an equals sign could be part of. -/
theorem IsOperand.exists_tokens (h : IsOperand s e) :
    ∃ ts, Derives .primary ts e ∧ ∀ size rest, EndsWord rest →
      tokensFrom size (s.toList ++ rest) = (tokensFrom size rest).map (ts ++ ·) := by
  obtain ⟨ts, hts, hderives⟩ := h
  refine ⟨ts, hderives, fun size rest hends => ?_⟩
  exact tokensFrom_append hts hends fun _ => hderives.getLast?_primary

/-- No operand begins with an equals sign. -/
theorem IsOperand.head?_append_ne (h : IsOperand s e) : (s.toList ++ rest).head? ≠ some '=' := by
  obtain ⟨ts, hts, hderives⟩ := h
  rw [tokens] at hts
  generalize s.toList = cs₀ at hts ⊢
  rcases cs₀ with _ | ⟨c, cs⟩
  · rw [tokensFrom_nil] at hts
    cases hts
    cases hderives
  intro hhead
  obtain rfl : c = '=' := Option.some.inj hhead
  rw [tokensFrom_cons, if_neg (by decide)] at hts
  obtain ⟨⟨t, r⟩, htoken, hrest⟩ := bind_ok hts
  obtain ⟨us, -, rfl⟩ := map_ok hrest
  obtain rfl : t = .op .eq := by
    rcases cs with _ | ⟨d, cs⟩
    · cases htoken
    · unfold token at htoken
      split at htoken <;> simp_all
  cases hderives

end

end SqlMapper.Expr
