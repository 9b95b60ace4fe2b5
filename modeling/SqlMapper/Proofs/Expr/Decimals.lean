import SqlMapper.Proofs.Expr.Joining

/-!
Integers written in decimal. Such a numeral is read as the integer, with one exception: the sign is
read apart from the digits, and the digits of the lowest integer are out of range.
-/

namespace SqlMapper

namespace Expr

open Text

/-- Where an operand can stand in a test expression: the texts before and after it, and what becomes
of its tree. It can be the whole expression, it can be compared with another operand, and what it is
part of can be in parentheses and stand as an operand again. -/
inductive Place : Rule → String → String → (Tree → Tree) → Prop where
  | whole : Place .primary "" "" id
  | uncompared {before after : String} {tree : Tree → Tree}
    (inner : Place .primary before after tree) : Place .compare before after tree
  | comparedLeft {before after op other : String} {tree : Tree → Tree} {c : Comparison} {e : Tree}
    (inner : Place .primary before after tree) (hop : c.Written op) (hother : IsOperand other e) :
    Place .compare before (after ++ op ++ other) fun x => .compare (tree x) c e
  | comparedRight {before after op other : String} {tree : Tree → Tree} {c : Comparison} {e : Tree}
    (hother : IsOperand other e) (hop : c.Written op) (inner : Place .primary before after tree) :
    Place .compare (other ++ op ++ before) after fun x => .compare e c (tree x)
  | grouped {before after blanks blanks' : String} {tree : Tree → Tree}
    (hblanks : isBlankText blanks) (inner : Place .compare before after tree)
    (hblanks' : isBlankText blanks') :
    Place .primary ("(" ++ blanks ++ before) (after ++ blanks' ++ ")") tree

/-- Around an operand some tokens are read before it and some after it, whatever the operand is. -/
structure Surrounds (rule : Rule) (before after : List Char) (us vs : List Token)
    (tree : Tree → Tree) : Prop where
  starts : ∀ cs, cs.head? ≠ some '=' → (before ++ cs).head? ≠ some '='
  opens : ∀ size cs, cs.head? ≠ some '=' →
    tokensFrom size (before ++ cs) = (tokensFrom size cs).map (us ++ ·)
  ends : ∀ rest, EndsWord rest → EndsWord (after ++ rest)
  closes : ∀ size rest, EndsWord rest →
    tokensFrom size (after ++ rest) = (tokensFrom size rest).map (vs ++ ·)
  derives : ∀ ts e, Derives .primary ts e → Derives rule (us ++ ts ++ vs) (tree e)

section Surroundings

variable {ts : List Token} {e : Tree}

theorem Derives.or_of_compare (h : Derives .compare ts e) : Derives .or ts e := by
  have hor : Derives .or ((ts ++ []) ++ []) e :=
    .or (.and (.affirmed h) (List.forall_mem_nil _)) (List.forall_mem_nil _)
  rwa [List.append_nil, List.append_nil] at hor

namespace Surrounds

variable {rule : Rule} {before after op blanks blanks' : List Char} {us vs : List Token}
  {tree : Tree → Tree}

theorem whole : Surrounds .primary [] [] [] [] id where
  starts _ h := h
  opens size cs _ := (map_nil_append _).symm
  ends _ h := h
  closes size rest _ := (map_nil_append _).symm
  derives ts e h := by rwa [List.nil_append, List.append_nil]

theorem comparedLeft {op other : String} {c : Comparison} {e : Tree}
    (h : Surrounds .primary before after us vs tree) (hop : c.Written op)
    (hother : IsOperand other e) :
    ∃ ws, Surrounds .compare before (after ++ op.toList ++ other.toList) us (vs ++ .op c :: ws)
      fun x => .compare (tree x) c e := by
  obtain ⟨ws, hws, htokens⟩ := hother.exists_tokens
  refine ⟨ws, h.starts, h.opens, fun rest _ => ?_, fun size rest hrest => ?_, fun ts x hts => ?_⟩
  · rw [List.append_assoc, List.append_assoc]
    exact h.ends _ hop.endsWord_append
  · rw [List.append_assoc, List.append_assoc, h.closes size _ hop.endsWord_append,
      hop.tokensFrom_append hother.head?_append_ne, htokens size rest hrest, map_cons_append,
      map_append_append]
  · rw [← List.append_assoc]
    exact .compared c (h.derives ts x hts) hws

theorem comparedRight {op other : String} {c : Comparison} {e : Tree} (hother : IsOperand other e)
    (hop : c.Written op) (h : Surrounds .primary before after us vs tree) :
    ∃ ws, Surrounds .compare (other.toList ++ op.toList ++ before) after (ws ++ .op c :: us) vs
      fun x => .compare e c (tree x) := by
  obtain ⟨ws, hws, htokens⟩ := hother.exists_tokens
  refine ⟨ws, fun cs _ => ?_, fun size cs hcs => ?_, h.ends, h.closes, fun ts x hts => ?_⟩
  · rw [List.append_assoc, List.append_assoc]
    exact hother.head?_append_ne
  · rw [List.append_assoc, List.append_assoc, htokens size _ hop.endsWord_append,
      hop.tokensFrom_append (h.starts cs hcs), h.opens size cs hcs, map_cons_append,
      map_append_append]
  · rw [List.append_assoc, List.append_assoc, List.cons_append, ← List.append_assoc us]
    exact .compared c hws (h.derives ts x hts)

/-- What surrounds an operand may be put in parentheses. -/
theorem grouped (h : Surrounds .compare before after us vs tree)
    (hblanks : ∀ c ∈ blanks, isBlank c) (hblanks' : ∀ c ∈ blanks', isBlank c) :
    Surrounds .primary ('(' :: blanks ++ before) (after ++ blanks' ++ [')']) (.opening :: us)
      (vs ++ [.closing]) tree where
  starts cs _ := by simp
  opens size cs hcs := by
    rw [List.cons_append, List.cons_append, List.append_assoc,
      tokensFrom_of_token (t := .opening) (by decide) fun _ => rfl, tokensFrom_blanks hblanks,
      h.opens size cs hcs, map_cons_append]
  ends rest _ := by
    rw [List.append_assoc, List.append_assoc]
    apply h.ends
    exact endsWord_blanks_append hblanks' fun _ c hc => by cases hc; decide
  closes size rest _ := by
    have hclosing : EndsWord (blanks' ++ ')' :: rest) :=
      endsWord_blanks_append hblanks' fun _ c hc => by cases hc; decide
    rw [List.append_assoc, List.append_assoc, List.singleton_append, h.closes size _ hclosing,
      tokensFrom_blanks hblanks', tokensFrom_of_token (t := .closing) (by decide) fun _ => rfl]
    exact map_append_append _ vs [.closing]
  derives ts e hts := by
    have hgrouped := Derives.grouped (h.derives ts e hts).or_of_compare
    rwa [List.cons_append, List.cons_append, ← List.append_assoc, ← List.cons_append]

end Surrounds

variable {rule : Rule} {before after : String} {tree : Tree → Tree}

/-- By induction on the place, from the operand outwards. -/
theorem Place.surrounds (h : Place rule before after tree) :
    ∃ us vs, Surrounds rule before.toList after.toList us vs tree := by
  induction h with
  | whole => exact ⟨[], [], .whole⟩
  | uncompared inner ih =>
    obtain ⟨us, vs, h⟩ := ih
    exact ⟨us, vs, h.starts, h.opens, h.ends, h.closes, fun ts e hts => .alone (h.derives ts e hts)⟩
  | comparedLeft inner hop hother ih =>
    obtain ⟨us, vs, h⟩ := ih
    obtain ⟨ws, hleft⟩ := h.comparedLeft hop hother
    rw [String.toList_append, String.toList_append]
    exact ⟨_, _, hleft⟩
  | comparedRight hother hop inner ih =>
    obtain ⟨us, vs, h⟩ := ih
    obtain ⟨ws, hright⟩ := Surrounds.comparedRight hother hop h
    rw [String.toList_append, String.toList_append]
    exact ⟨_, _, hright⟩
  | grouped hblanks inner hblanks' ih =>
    obtain ⟨us, vs, h⟩ := ih
    have hgrouped := h.grouped (forall_isBlank_of_isBlankText hblanks)
      (forall_isBlank_of_isBlankText hblanks')
    rw [String.toList_append, String.toList_append, String.toList_append, String.toList_append]
    exact ⟨_, _, hgrouped⟩

/-- What stands at a place matters to the value of the whole only by its own value. -/
theorem Place.eval_congr (h : Place rule before after tree) {valueAt : String → Value} {x y : Tree}
    (hsame : x.eval valueAt = y.eval valueAt) :
    (tree x).eval valueAt = (tree y).eval valueAt := by
  induction h with
  | whole => exact hsame
  | uncompared _ ih => exact ih
  | comparedLeft _ _ _ ih => simp only [Tree.eval, ih]
  | comparedRight _ _ _ ih => simp only [Tree.eval, ih]
  | grouped _ _ _ ih => exact ih

end Surroundings

section Numerals

variable {size : Nat} {rest : List Char} {i : Int64}

def decimalTokens (i : Int64) : List Token :=
  if i.toInt < 0 then [.minus, .int (-i)] else [.int i]

theorem derives_decimal (i : Int64) : Derives .primary (decimalTokens i) (.literal (.int i)) := by
  unfold decimalTokens
  split
  · have hnegative := Derives.negativeInt (-i)
    rwa [Int64.neg_neg] at hnegative
  · exact .int i

theorem toList_toString_of_nonneg {n : Int} (h : 0 ≤ n) :
    (toString n).toList = Nat.toDigits 10 n.natAbs := by
  obtain ⟨m, rfl⟩ := Int.eq_ofNat_of_zero_le h
  exact String.toList_ofList

theorem toList_toString_of_neg {n : Int} (h : n < 0) :
    (toString n).toList = '-' :: Nat.toDigits 10 n.natAbs := by
  obtain ⟨m, rfl⟩ := Int.eq_negSucc_of_lt_zero h
  exact (String.toList_append).trans (congrArg _ String.toList_ofList)

theorem head?_decimal_append_ne (i : Int64) (rest : List Char) :
    ((toString i.toInt).toList ++ rest).head? ≠ some '=' := by
  by_cases hneg : i.toInt < 0
  · rw [toList_toString_of_neg hneg]
    simp
  · obtain ⟨d, ds, hds, hd⟩ := exists_decimal_eq i.toInt.natAbs
    rw [toList_toString_of_nonneg (by omega), hds]
    intro hhead
    obtain rfl : d = '=' := Option.some.inj hhead
    exact absurd hd (by decide)

theorem tokensFrom_negative (h : i.toInt < 0) :
    tokensFrom size ((toString i.toInt).toList ++ rest) =
      (tokensFrom size (Nat.toDigits 10 i.toInt.natAbs ++ rest)).map (.minus :: ·) := by
  rw [toList_toString_of_neg h, List.cons_append]
  exact tokensFrom_of_token (by decide) fun _ => rfl

variable (hends : ∀ c ∈ rest.head?, continuesNumber c = false)

include hends

/-- A decimal other than the lowest integer is read as the tokens of its sign and its digits. -/
theorem tokensFrom_decimal (hi : i ≠ Int64.minValue) :
    tokensFrom size ((toString i.toInt).toList ++ rest) =
      (tokensFrom size rest).map (decimalTokens i ++ ·) := by
  unfold decimalTokens
  split
  · rename_i hneg
    -- Only the lowest integer has no opposite.
    have hne : i.toInt ≠ Int64.minValue.toInt := fun h => hi (Int64.toInt_inj.mp h)
    rw [Int64.toInt_minValue] at hne
    have hle := i.le_toInt
    have hopposite : (-i).toInt = i.toInt.natAbs := by
      rw [Int64.toInt_neg, Int.bmod_eq_of_le (by omega) (by omega)]
      omega
    rw [tokensFrom_negative hneg, tokensFrom_int hends (numeral?_decimal _) hopposite]
    exact map_cons_append _ [.int (-i)]
  · rename_i hnonneg
    rw [toList_toString_of_nonneg (by omega),
      tokensFrom_int hends (numeral?_decimal _) (Int.natAbs_of_nonneg (by omega)).symm]
    rfl

theorem tokensFrom_lowest : tokensFrom size ((toString Int64.minValue.toInt).toList ++ rest) =
    .error (.invalidNumber "9223372036854775808") := by
  rw [tokensFrom_negative (by decide), tokensFrom_digits hends (numeral?_decimal _),
    numberToken_of_numeral? (numeral?_decimal _), if_neg (by decide)]
  rfl

end Numerals
end Expr

namespace Test

open SqlMapper.Expr

/-- An integer in decimal is read as that integer, alone or where an operand can stand: on either
side of a comparison and in parentheses, at any depth. The whole has the value that it has with a
name for the integer in its place. The only integer that cannot be written so is the lowest one,
whose digits are refused wherever it stands. -/
theorem parse_decimal (i : Int64) {before after : String} {tree : Tree → Tree}
    (h : Place .compare before after tree) :
    let source := before ++ toString i.toInt ++ after
    (i ≠ Int64.minValue → Test.parse source = .ok ⟨source, tree (.literal (.int i))⟩) ∧
    (i = Int64.minValue → Test.parse source =
      .error (.expression source "invalid number '9223372036854775808'")) ∧
    ∀ valueAt, (Tree.literal (.int i)).eval valueAt = .ok (.int i) ∧
      ∀ x, valueAt x = .int i →
        (tree (.literal (.int i))).eval valueAt = (tree (.path x)).eval valueAt := by
  intro source
  obtain ⟨us, vs, hplace⟩ := h.surrounds
  have hends : ∀ c ∈ after.toList.head?, continuesNumber c = false := by
    have hword := hplace.ends [] nofun
    rw [List.append_nil] at hword
    exact hword.endsNumber
  have hafter (size : Nat) : tokensFrom size after.toList = .ok vs := by
    have hcloses := hplace.closes size [] nofun
    rw [List.append_nil, tokensFrom_nil] at hcloses
    rw [hcloses]
    exact congrArg Except.ok (List.append_nil vs)
  have htokens : tokens source = (tokensFrom source.length
      ((toString i.toInt).toList ++ after.toList)).map (us ++ ·) := by
    rw [tokens, String.toList_append, String.toList_append, List.append_assoc]
    exact hplace.opens _ _ (head?_decimal_append_ne i _)
  refine ⟨fun hi => ?_, fun hlowest => ?_, fun valueAt => ⟨rfl, fun x hx => ?_⟩⟩
  · have hall : tokens source = .ok (us ++ decimalTokens i ++ vs) := by
      rw [htokens, tokensFrom_decimal hends hi, map_append_append, hafter]
      rfl
    have htree : treeOfTokens (us ++ decimalTokens i ++ vs) = .ok (tree (.literal (.int i))) :=
      treeOfTokens_eq_ok_iff.mpr (hplace.derives _ _ (derives_decimal i)).or_of_compare
    rw [Test.parse, Expr.parse, hall]
    dsimp only
    rw [htree]
  · have hfault : tokens source = .error (.invalidNumber "9223372036854775808") := by
      rw [htokens, hlowest, tokensFrom_lowest hends]
      rfl
    rw [Test.parse, Expr.parse, hfault]
    rfl
  · apply h.eval_congr
    rw [Tree.eval, Tree.eval, hx]

/-- The lowest integer that can be written, in parentheses on the right of a comparison. -/
theorem parse_decimal_bound :
    Test.parse "limit >= ( -9223372036854775807 )" =
      .ok ⟨"limit >= ( -9223372036854775807 )",
        .compare (.path "limit") .ge (.literal (.int (-9223372036854775807)))⟩ := by
  have hlimit : IsOperand "limit" (.path "limit") :=
    ⟨[.name "limit"], by cbv, .path (by decide) (by decide) (by decide)⟩
  have hop : Comparison.ge.Written (" " ++ Comparison.ge.sign ++ " ") :=
    .sign (by decide) (by decide)
  have hplace : Place .compare ("limit" ++ (" " ++ Comparison.ge.sign ++ " ") ++ ("(" ++ " " ++ ""))
      ("" ++ " " ++ ")") fun x => .compare (.path "limit") .ge x :=
    .comparedRight hlimit hop (.grouped (by decide) (.uncompared .whole) (by decide))
  exact (parse_decimal (-9223372036854775807) hplace).1 (by decide)

/-- The lowest integer is no test expression. -/
theorem parse_lowest :
    toString Int64.minValue.toInt = "-9223372036854775808" ∧
      Test.parse "-9223372036854775808" = .error
        (.expression "-9223372036854775808" "invalid number '9223372036854775808'") := by
  refine ⟨by decide, ?_⟩
  have hend : ∀ c ∈ ([] : List Char).head?, continuesNumber c = false := nofun
  have htokens : tokens "-9223372036854775808" =
      .error (.invalidNumber "9223372036854775808") := tokensFrom_lowest hend
  rw [Test.parse, Expr.parse, htokens]
  rfl

end Test
end SqlMapper
