import SqlMapper.Expr.Eval

/-!
The grammar of test expressions, and that reading is exact for it. Each rule is read greedily;
inside a derivation nothing follows a part that the part's rule could go on with, so greed loses
nothing.
-/

namespace SqlMapper.Expr

inductive Rule where
  | or | and | unary | compare | primary
  deriving DecidableEq

inductive Derives : Rule → List Token → Tree → Prop where
  | or {ts : List Token} {e : Tree} {more : List (List Token × Tree)}
      (first : Derives .and ts e) (others : ∀ p ∈ more, Derives .and p.1 p.2) :
    Derives .or (ts ++ more.flatMap fun p => .or :: p.1) (more.foldl (fun l p => .or l p.2) e)
  | and {ts : List Token} {e : Tree} {more : List (List Token × Tree)}
      (first : Derives .unary ts e) (others : ∀ p ∈ more, Derives .unary p.1 p.2) :
    Derives .and (ts ++ more.flatMap fun p => .and :: p.1) (more.foldl (fun l p => .and l p.2) e)
  | not {ts : List Token} {e : Tree} (inner : Derives .unary ts e) :
    Derives .unary (.not :: ts) (.not e)
  | affirmed {ts : List Token} {e : Tree} (inner : Derives .compare ts e) : Derives .unary ts e
  | compared {ts us : List Token} {l r : Tree} (op : Comparison) (left : Derives .primary ts l)
      (right : Derives .primary us r) : Derives .compare (ts ++ .op op :: us) (.compare l op r)
  | alone {ts : List Token} {e : Tree} (inner : Derives .primary ts e) : Derives .compare ts e
  | grouped {ts : List Token} {e : Tree} (inner : Derives .or ts e) :
    Derives .primary (.opening :: ts ++ [.closing]) e
  | int (i : Int64) : Derives .primary [.int i] (.literal (.int i))
  | float (x : Binary64) : Derives .primary [.float x] (.literal (.float x))
  | negativeInt (i : Int64) : Derives .primary [.minus, .int i] (.literal (.int (-i)))
  | negativeFloat (x : Binary64) : Derives .primary [.minus, .float x] (.literal (.float x.neg))
  | text (s : String) : Derives .primary [.text s] (.literal (.text s))
  | null : Derives .primary [.name "null"] (.literal .null)
  | true : Derives .primary [.name "true"] (.literal (.bool true))
  | false : Derives .primary [.name "false"] (.literal (.bool false))
  | path {s : String} (hnull : s ≠ "null") (htrue : s ≠ "true") (hfalse : s ≠ "false") :
    Derives .primary [.name s] (.path s)

def plain {p : List Token → Prop} (x : Except Fault (Tree × { rest : List Token // p rest })) :
    Except Fault (Tree × List Token) :=
  x.map fun y => (y.1, y.2.1)

theorem plain_ok {p : List Token → Prop}
    {x : Except Fault (Tree × { rest : List Token // p rest })} {e : Tree} {r : List Token}
    (h : plain x = .ok (e, r)) : p r := by
  rcases x with f | ⟨l, rest, hrest⟩
  · cases h
  · cases h
    exact hrest

theorem bind_ok {α β : Type} {x : Except Fault α} {next : α → Except Fault β} {y : β}
    (h : x.bind next = .ok y) : ∃ a, x = .ok a ∧ next a = .ok y := by
  rcases x with f | a
  · cases h
  · exact ⟨a, rfl, h⟩

theorem map_ok {α β : Type} {x : Except Fault α} {f : α → β} {y : β} (h : x.map f = .ok y) :
    ∃ a, x = .ok a ∧ f a = y := by
  rcases x with _ | a
  · cases h
  · exact ⟨a, rfl, Except.ok.inj h⟩

def Rule.read (rule : Rule) (ts : List Token) : Except Fault (Tree × List Token) :=
  match rule with
  | .or => plain (readOr ts)
  | .and => plain (readAnd ts)
  | .unary => plain (readNot ts)
  | .compare => plain (readComparison ts)
  | .primary => plain (readOperand ts)

/-- What is left after reading is shorter. -/
theorem Rule.length_lt_of_read {rule : Rule} {ts r : List Token} {e : Tree}
    (h : rule.read ts = .ok (e, r)) : r.length < ts.length := by
  cases rule with
  | or => exact plain_ok h
  | and => exact plain_ok h
  | unary => exact plain_ok h
  | compare => exact plain_ok h
  | primary => exact plain_ok h

theorem read_unary_not (ts : List Token) :
    Rule.unary.read (.not :: ts) = (Rule.unary.read ts).map fun x => (.not x.1, x.2) := by
  rw [Rule.read, Rule.read, readNot]
  rcases readNot ts with f | ⟨e, rest, h⟩
  · rfl
  · rfl

theorem read_unary_of_ne {ts : List Token} (h : ts.head? ≠ some .not) :
    Rule.unary.read ts = Rule.compare.read ts := by
  rw [Rule.read, Rule.read, readNot.eq_def]
  split
  · exact absurd rfl h
  · rfl

theorem read_compare (ts : List Token) : Rule.compare.read ts =
    (Rule.primary.read ts).bind fun x =>
      match x.2 with
      | .op op :: rest =>
        (Rule.primary.read rest).map fun y => (.compare x.1 op y.1, y.2)
      | rest => .ok (x.1, rest) := by
  rw [Rule.read, Rule.read, readComparison]
  rcases readOperand ts with f | ⟨l, rest, h⟩
  · rfl
  rcases rest with _ | ⟨t, rest⟩
  · rfl
  cases t with
  | op op =>
    dsimp only [plain, Except.map, Except.bind, Rule.read]
    rcases readOperand rest with f | ⟨r, us, hus⟩
    · rfl
    · rfl
  | _ => rfl

theorem read_primary_opening (ts : List Token) : Rule.primary.read (.opening :: ts) =
    (Rule.or.read ts).bind fun x =>
      match x.2 with
      | .closing :: rest => .ok (x.1, rest)
      | _ => .error .missingParenthesis := by
  rw [Rule.read, Rule.read, readOperand]
  rcases readOr ts with f | ⟨e, rest, h⟩
  · rfl
  rcases rest with _ | ⟨t, rest⟩
  · rfl
  cases t with
  | closing => rfl
  | _ => rfl

theorem nameTree_path {s : String} (hnull : s ≠ "null") (htrue : s ≠ "true")
    (hfalse : s ≠ "false") : nameTree s = .path s := by
  unfold nameTree
  split
  · exact absurd rfl hnull
  · exact absurd rfl htrue
  · exact absurd rfl hfalse
  · rfl

theorem derives_name (s : String) : Derives .primary [.name s] (nameTree s) := by
  unfold nameTree
  split
  · exact .null
  · exact .true
  · exact .false
  · next hnull htrue hfalse => exact .path hnull htrue hfalse

/-- The tokens that can follow a part of what a rule derives, inside a longer derivation from the
same rule. -/
def Rule.GoesOn : Rule → Token → Prop
  | .or, t => t = .or ∨ t = .and ∨ ∃ op, t = .op op
  | .and, t => t = .and ∨ ∃ op, t = .op op
  | .unary, t | .compare, t => ∃ op, t = .op op
  | .primary, _ => False

def Rule.Stops (rule : Rule) (rest : List Token) : Prop :=
  ∀ t ∈ rest.head?, ¬ rule.GoesOn t

/-- A rule that is a row of operands with a sign between any two of them, and the function that
reads the signs and operands after the first one. -/
structure Row (rule operand : Rule) (sign : Token) (join : Tree → Tree → Tree)
    (tail : Tree → List Token → Except Fault (Tree × List Token)) : Prop where
  read_eq : ∀ ts, rule.read ts = (operand.read ts).bind fun x => tail x.1 x.2
  tail_sign : ∀ left ts,
    tail left (sign :: ts) = (operand.read ts).bind fun x => tail (join left x.1) x.2
  tail_of_ne : ∀ left {ts}, ts.head? ≠ some sign → tail left ts = .ok (left, ts)
  derives : ∀ {ts e} {more : List (List Token × Tree)}, Derives operand ts e →
    (∀ p ∈ more, Derives operand p.1 p.2) →
    Derives rule (ts ++ more.flatMap fun p => sign :: p.1) (more.foldl (fun l p => join l p.2) e)
  goesOn_iff : ∀ t, rule.GoesOn t ↔ t = sign ∨ operand.GoesOn t
  not_goesOn_sign : ¬ operand.GoesOn sign

theorem row_or : Row .or .and .or .or fun left ts => plain (readOrTail left ts) where
  read_eq ts := by
    rw [Rule.read, Rule.read, readOr]
    rcases readAnd ts with f | ⟨l, rest, h⟩
    · rfl
    dsimp only [plain, Except.map, Except.bind]
    rcases readOrTail l rest with f | ⟨e, r, hr⟩
    · rfl
    · rfl
  tail_sign left ts := by
    rw [Rule.read, readOrTail]
    rcases readAnd ts with f | ⟨l, rest, h⟩
    · rfl
    dsimp only [plain, Except.map, Except.bind]
    rcases readOrTail (.or left l) rest with f | ⟨e, r, hr⟩
    · rfl
    · rfl
  tail_of_ne left ts h := by
    rw [readOrTail.eq_def]
    split
    · exact absurd rfl h
    · rfl
  derives := .or
  goesOn_iff _ := Iff.rfl
  not_goesOn_sign := by simp [Rule.GoesOn]

theorem row_and : Row .and .unary .and .and fun left ts => plain (readAndTail left ts) where
  read_eq ts := by
    rw [Rule.read, Rule.read, readAnd]
    rcases readNot ts with f | ⟨l, rest, h⟩
    · rfl
    dsimp only [plain, Except.map, Except.bind]
    rcases readAndTail l rest with f | ⟨e, r, hr⟩
    · rfl
    · rfl
  tail_sign left ts := by
    rw [Rule.read, readAndTail]
    rcases readNot ts with f | ⟨l, rest, h⟩
    · rfl
    dsimp only [plain, Except.map, Except.bind]
    rcases readAndTail (.and left l) rest with f | ⟨e, r, hr⟩
    · rfl
    · rfl
  tail_of_ne left ts h := by
    rw [readAndTail.eq_def]
    split
    · exact absurd rfl h
    · rfl
  derives := .and
  goesOn_iff _ := Iff.rfl
  not_goesOn_sign := by simp [Rule.GoesOn]

section Completeness

def Rule.Reads (rule : Rule) (ts : List Token) (e : Tree) : Prop :=
  ∀ rest, rule.Stops rest → rule.read (ts ++ rest) = .ok (e, rest)

namespace Row

variable {rule operand : Rule} {sign : Token} {join : Tree → Tree → Tree}
  {tail : Tree → List Token → Except Fault (Tree × List Token)}

/-- What follows an operand is a sign or what follows the whole row. -/
theorem tail_flatMap (hrow : Row rule operand sign join tail)
    {more : List (List Token × Tree)} (hmore : ∀ p ∈ more, operand.Reads p.1 p.2)
    {rest : List Token} (hrest : rule.Stops rest) (left : Tree) :
    operand.Stops (more.flatMap (fun p => sign :: p.1) ++ rest) ∧
      tail left (more.flatMap (fun p => sign :: p.1) ++ rest) =
        .ok (more.foldl (fun l p => join l p.2) left, rest) := by
  induction more generalizing left with
  | nil =>
    constructor
    · intro t ht hgo
      exact hrest t ht ((hrow.goesOn_iff t).mpr (.inr hgo))
    · refine hrow.tail_of_ne left fun hhead => ?_
      exact hrest sign hhead ((hrow.goesOn_iff sign).mpr (.inl rfl))
  | cons p more ih =>
    obtain ⟨hstops, htail⟩ := ih (fun q hq => hmore q (List.mem_cons_of_mem _ hq)) (join left p.2)
    have hp : operand.read (p.1 ++ (more.flatMap (fun p => sign :: p.1) ++ rest)) =
        .ok (p.2, more.flatMap (fun p => sign :: p.1) ++ rest) :=
      hmore p List.mem_cons_self _ hstops
    rw [List.flatMap_cons, List.cons_append, List.cons_append, List.append_assoc]
    refine ⟨fun t ht => ?_, ?_⟩
    · obtain rfl : sign = t := Option.some.inj ht
      exact hrow.not_goesOn_sign
    · rw [hrow.tail_sign, hp]
      exact htail

/-- A row reads its operands, one behind the other with its sign between them. -/
theorem reads (hrow : Row rule operand sign join tail)
    {ts : List Token} {e : Tree} (hfirst : operand.Reads ts e)
    {more : List (List Token × Tree)} (hmore : ∀ p ∈ more, operand.Reads p.1 p.2) :
    rule.Reads (ts ++ more.flatMap fun p => sign :: p.1)
      (more.foldl (fun l p => join l p.2) e) := by
  intro rest hrest
  obtain ⟨hstops, htail⟩ := hrow.tail_flatMap hmore hrest e
  rw [List.append_assoc, hrow.read_eq, hfirst _ hstops]
  exact htail

end Row

/-- A comparison does not start with `not`, so what is read as one is read as a negation or one. -/
theorem read_unary_of_read_compare {ts : List Token} {x : Tree × List Token}
    (h : Rule.compare.read ts = .ok x) : Rule.unary.read ts = .ok x := by
  rw [read_unary_of_ne, h]
  intro hhead
  obtain ⟨us, rfl⟩ := List.head?_eq_some_iff.mp hhead
  rw [read_compare, Rule.read, readOperand] at h
  · cases h
  all_goals simp

/-- By induction on the derivation: every rule reads all that is derived from it. -/
theorem Derives.reads {rule : Rule} {ts : List Token} {e : Tree} (h : Derives rule ts e) :
    rule.Reads ts e := by
  induction h with
  | or _ _ first others => exact row_or.reads first others
  | and _ _ first others => exact row_and.reads first others
  | not _ ih =>
    intro rest hrest
    rw [List.cons_append, read_unary_not, ih rest hrest]
    rfl
  | affirmed _ ih =>
    intro rest hrest
    exact read_unary_of_read_compare (ih rest hrest)
  | compared op _ _ left right =>
    intro rest hrest
    have hright := right rest fun _ _ => id
    rw [List.append_assoc, List.cons_append, read_compare, left _ fun _ _ => id]
    dsimp only [Except.bind]
    rw [hright]
    rfl
  | alone _ ih =>
    intro rest hrest
    rw [read_compare, ih rest fun _ _ => id]
    rcases rest with _ | ⟨t, rest⟩
    · rfl
    -- A comparison sign would be read on, but the rule goes on with it.
    cases t with
    | op op => exact absurd ⟨op, rfl⟩ (hrest _ rfl)
    | _ => rfl
  | grouped _ ih =>
    intro rest _
    have hclosing : Rule.or.Stops (.closing :: rest) := by
      intro t ht
      obtain rfl : Token.closing = t := Option.some.inj ht
      simp [Rule.GoesOn]
    rw [List.cons_append, List.cons_append, List.append_assoc, read_primary_opening,
      List.singleton_append, ih _ hclosing]
    rfl
  | path hnull htrue hfalse =>
    intro rest _
    simp [Rule.read, readOperand, plain, Except.map, nameTree_path hnull htrue hfalse]
  | _ =>
    intro rest _
    simp [Rule.read, readOperand, plain, Except.map, nameTree]

end Completeness

section Soundness

def Rule.SoundOn (rule : Rule) (ts : List Token) : Prop :=
  ∀ e r, rule.read ts = .ok (e, r) → ∃ us, ts = us ++ r ∧ Derives rule us e

namespace Row

variable {rule operand : Rule} {sign : Token} {join : Tree → Tree → Tree}
  {tail : Tree → List Token → Except Fault (Tree × List Token)} {ts : List Token}

/-- The tail of a row is read as operands with the row's sign before each of them. -/
theorem exists_flatMap_of_tail (hrow : Row rule operand sign join tail)
    (hoperand : ∀ us : List Token, us.length < ts.length → operand.SoundOn us)
    {left e : Tree} {r : List Token} (h : tail left ts = .ok (e, r)) :
    ∃ more : List (List Token × Tree), ts = more.flatMap (fun p => sign :: p.1) ++ r ∧
      e = more.foldl (fun l p => join l p.2) left ∧ ∀ p ∈ more, Derives operand p.1 p.2 := by
  -- Each round takes a sign and an operand off the front, so the induction is on the length.
  induction hn : ts.length using Nat.strongRecOn generalizing ts left with
  | ind n ih =>
  by_cases hhead : ts.head? = some sign
  · obtain ⟨us, rfl⟩ := List.head?_eq_some_iff.mp hhead
    rw [List.length_cons] at hn
    rw [hrow.tail_sign] at h
    obtain ⟨⟨e', vs⟩, hread, htail⟩ := bind_ok h
    have hvs : vs.length < us.length := Rule.length_lt_of_read hread
    obtain ⟨ws, rfl, hws⟩ := hoperand us (Nat.lt_succ_self _) e' vs hread
    obtain ⟨more, rfl, rfl, hmore⟩ := ih vs.length (by omega)
      (fun xs (hxs : xs.length < vs.length) => hoperand xs (by rw [List.length_cons]; omega))
      htail rfl
    refine ⟨(ws, e') :: more, ?_, rfl, ?_⟩
    · rw [List.flatMap_cons, List.cons_append, List.cons_append, List.append_assoc]
    · exact List.forall_mem_cons.mpr ⟨hws, hmore⟩
  · rw [hrow.tail_of_ne left hhead] at h
    cases h
    exact ⟨[], rfl, rfl, fun _ hp => absurd hp List.not_mem_nil⟩

/-- A row is read as the grammar derives it if its operands are. -/
theorem soundOn (hrow : Row rule operand sign join tail)
    (hoperand : ∀ us : List Token, us.length ≤ ts.length → operand.SoundOn us) :
    rule.SoundOn ts := by
  intro e r h
  rw [hrow.read_eq] at h
  obtain ⟨⟨left, vs⟩, hread, htail⟩ := bind_ok h
  have hvs : vs.length < ts.length := Rule.length_lt_of_read hread
  obtain ⟨us, rfl, hus⟩ := hoperand ts (Nat.le_refl _) left vs hread
  obtain ⟨more, rfl, rfl, hmore⟩ :=
    hrow.exists_flatMap_of_tail (fun ws (hws : ws.length < vs.length) => hoperand ws (by omega))
      htail
  exact ⟨us ++ more.flatMap fun p => sign :: p.1, (List.append_assoc _ _ _).symm,
    hrow.derives hus hmore⟩

end Row

variable {ts : List Token}

/-- A negation is read as the grammar derives it. -/
theorem soundOn_unary (hunary : ∀ us : List Token, us.length < ts.length → Rule.unary.SoundOn us)
    (hcompare : Rule.compare.SoundOn ts) : Rule.unary.SoundOn ts := by
  intro e r h
  by_cases hhead : ts.head? = some .not
  · obtain ⟨us, rfl⟩ := List.head?_eq_some_iff.mp hhead
    rw [read_unary_not] at h
    obtain ⟨⟨e', vs⟩, hread, heq⟩ := map_ok h
    cases heq
    obtain ⟨ws, rfl, hws⟩ := hunary us (Nat.lt_succ_self _) e' vs hread
    exact ⟨.not :: ws, rfl, .not hws⟩
  · rw [read_unary_of_ne hhead] at h
    obtain ⟨us, hts, hus⟩ := hcompare e r h
    exact ⟨us, hts, .affirmed hus⟩

/-- A comparison is read as the grammar derives it. -/
theorem soundOn_compare
    (hprimary : ∀ us : List Token, us.length ≤ ts.length → Rule.primary.SoundOn us) :
    Rule.compare.SoundOn ts := by
  intro e r h
  rw [read_compare] at h
  obtain ⟨⟨left, vs⟩, hread, hrest⟩ := bind_ok h
  have hvs : vs.length < ts.length := Rule.length_lt_of_read hread
  obtain ⟨us, rfl, hus⟩ := hprimary ts (Nat.le_refl _) left vs hread
  dsimp only at hrest
  split at hrest
  · next op ws =>
    obtain ⟨⟨right, xs⟩, hright, heq⟩ := map_ok hrest
    cases heq
    rw [List.length_cons] at hvs
    obtain ⟨ys, rfl, hys⟩ := hprimary ws (by omega) right xs hright
    exact ⟨us ++ .op op :: ys, by rw [List.append_assoc, List.cons_append], .compared op hus hys⟩
  · cases hrest
    exact ⟨us, rfl, .alone hus⟩

/-- An operand is read as the grammar derives it. -/
theorem soundOn_primary
    (hor : ∀ us : List Token, us.length < ts.length → Rule.or.SoundOn us) :
    Rule.primary.SoundOn ts := by
  intro e r h
  by_cases hhead : ts.head? = some .opening
  · obtain ⟨us, rfl⟩ := List.head?_eq_some_iff.mp hhead
    rw [read_primary_opening] at h
    obtain ⟨⟨e', vs⟩, hread, hrest⟩ := bind_ok h
    obtain ⟨ws, rfl, hws⟩ := hor us (Nat.lt_succ_self _) e' vs hread
    dsimp only at hrest
    split at hrest
    · next rest =>
      cases hrest
      refine ⟨.opening :: ws ++ [.closing], ?_, .grouped hws⟩
      rw [List.append_assoc, List.cons_append, List.singleton_append]
    · cases hrest
  · rw [Rule.read, readOperand.eq_def] at h
    split at h
    · exact absurd rfl hhead
    · next i rest =>
      cases h
      exact ⟨[.minus, .int i], rfl, .negativeInt i⟩
    · next x rest =>
      cases h
      exact ⟨[.minus, .float x], rfl, .negativeFloat x⟩
    · cases h
    · next i rest =>
      cases h
      exact ⟨[.int i], rfl, .int i⟩
    · next x rest =>
      cases h
      exact ⟨[.float x], rfl, .float x⟩
    · next s rest =>
      cases h
      exact ⟨[.text s], rfl, .text s⟩
    · next s rest =>
      cases h
      exact ⟨[.name s], rfl, derives_name s⟩
    · cases h
    · cases h

/-- By induction on a bound of the length: a primary goes back to `or` only behind a parenthesis,
`unary` to itself only behind a sign, and all else to tighter rules. -/
theorem soundOn (n : Nat) (rule : Rule) (ts : List Token) (hts : ts.length < n) :
    rule.SoundOn ts := by
  induction n generalizing rule ts with
  | zero => exact absurd hts (Nat.not_lt_zero _)
  | succ n ih =>
    have hprimary : ∀ us : List Token, us.length ≤ n → Rule.primary.SoundOn us := fun us hus =>
      soundOn_primary fun vs hvs => ih .or vs (by omega)
    have hcompare : ∀ us : List Token, us.length ≤ n → Rule.compare.SoundOn us := fun us hus =>
      soundOn_compare fun vs hvs => hprimary vs (by omega)
    have hunary : ∀ us : List Token, us.length ≤ n → Rule.unary.SoundOn us := fun us hus =>
      soundOn_unary (fun vs hvs => ih .unary vs (by omega)) (hcompare us hus)
    have hand : ∀ us : List Token, us.length ≤ n → Rule.and.SoundOn us := fun us hus =>
      row_and.soundOn fun vs hvs => hunary vs (by omega)
    have hor : Rule.or.SoundOn ts := row_or.soundOn fun vs hvs => hand vs (by omega)
    cases rule with
    | or => exact hor
    | and => exact hand ts (by omega)
    | unary => exact hunary ts (by omega)
    | compare => exact hcompare ts (by omega)
    | primary => exact hprimary ts (by omega)

end Soundness

theorem treeOfTokens_eq (ts : List Token) : treeOfTokens ts =
    (Rule.or.read ts).bind fun x =>
      match x.2 with
      | [] => .ok x.1
      | t :: _ => .error (.unexpectedToken t) := by
  rw [treeOfTokens, Rule.read]
  rcases readOr ts with f | ⟨e, rest, h⟩
  · rfl
  rcases rest with _ | ⟨t, rest⟩
  · rfl
  · rfl

/-- A list of tokens is read as a tree exactly if the whole of it is derived from `or`. -/
theorem treeOfTokens_eq_ok_iff {ts : List Token} {e : Tree} :
    treeOfTokens ts = .ok e ↔ Derives .or ts e := by
  rw [treeOfTokens_eq]
  constructor
  · intro h
    obtain ⟨⟨e', rest⟩, hread, hrest⟩ := bind_ok h
    obtain ⟨us, rfl, hus⟩ := soundOn (ts.length + 1) .or ts (Nat.lt_succ_self _) e' rest hread
    dsimp only at hrest
    split at hrest
    · cases hrest
      rwa [List.append_nil]
    · cases hrest
  · intro h
    have hread := h.reads [] fun t ht => absurd ht (by simp)
    rw [List.append_nil] at hread
    rw [hread]
    rfl

/-- A text that is made of tokens is a test expression exactly if all its tokens are derived from
`or`, and its tree is the one of the derivation. Every list of tokens, from a text or not, is either
derived with one tree, which reading finds, or refused and not derived at all. -/
theorem parse_iff_derives :
    (∀ source ts, tokens source = .ok ts →
      ∀ t : Test, Test.parse source = .ok t ↔ t.source = source ∧ Derives .or ts t.tree) ∧
    ∀ ts : List Token,
      (∃ e, treeOfTokens ts = .ok e ∧ Derives .or ts e ∧ ∀ e', Derives .or ts e' → e' = e) ∨
      (∃ f, treeOfTokens ts = .error f ∧ ∀ e, ¬ Derives .or ts e) := by
  constructor
  · intro source ts hts t
    rw [Test.parse, parse, hts, ← treeOfTokens_eq_ok_iff]
    dsimp only
    rcases treeOfTokens ts with f | e
    · simp
    · obtain ⟨text, tree⟩ := t
      simp [eq_comm]
  · intro ts
    rcases hread : treeOfTokens ts with f | e
    · refine .inr ⟨f, rfl, fun e he => ?_⟩
      rw [← treeOfTokens_eq_ok_iff, hread] at he
      cases he
    · refine .inl ⟨e, rfl, treeOfTokens_eq_ok_iff.mp hread, fun e' he => ?_⟩
      rw [← treeOfTokens_eq_ok_iff, hread] at he
      exact (Except.ok.inj he).symm

theorem parse_or_of_and_of_not_compare :
    tokens "a or b and not c == d" = .ok
      [.name "a", .or, .name "b", .and, .not, .name "c", .op .eq, .name "d"] ∧
    Test.parse "a or b and not c == d" = .ok ⟨"a or b and not c == d", .or (.path "a")
      (.and (.path "b") (.not (.compare (.path "c") .eq (.path "d"))))⟩ := by
  have htokens : tokens "a or b and not c == d" = .ok
      [.name "a", .or, .name "b", .and, .not, .name "c", .op .eq, .name "d"] := by cbv
  have ha : Derives .primary [.name "a"] (.path "a") := .path (by decide) (by decide) (by decide)
  have hb : Derives .primary [.name "b"] (.path "b") := .path (by decide) (by decide) (by decide)
  have hc : Derives .primary [.name "c"] (.path "c") := .path (by decide) (by decide) (by decide)
  have hd : Derives .primary [.name "d"] (.path "d") := .path (by decide) (by decide) (by decide)
  have hnot := Derives.not (.affirmed (.compared .eq hc hd))
  have hright := Derives.and (.affirmed (.alone hb))
    (List.forall_mem_singleton (a := (_, _)).mpr hnot)
  have hor := Derives.or (Derives.and (.affirmed (.alone ha)) (List.forall_mem_nil _))
    (List.forall_mem_singleton (a := (_, _)).mpr hright)
  exact ⟨htokens, (parse_iff_derives.1 _ _ htokens _).mpr ⟨rfl, hor⟩⟩

/-- Comparisons do not join: the second one is left over. -/
example : treeOfTokens [.name "a", .op .lt, .name "b", .op .lt, .name "c"] =
    .error (.unexpectedToken (.op .lt)) := by cbv

end SqlMapper.Expr
