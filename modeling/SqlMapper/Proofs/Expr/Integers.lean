import SqlMapper.Proofs.Binary64.Rounding
import SqlMapper.Proofs.Expr.Grammar
import SqlMapper.Proofs.Expr.Scanning
import SqlMapper.Sql.Context

/-!
Comparing integers in test expressions. Numbers are compared by the nearest double precision
numbers, and from `2 ^ 53` on neighbouring integers can have the same one.
-/

namespace SqlMapper

namespace Expr

namespace Comparison

variable (c : Comparison)

def onInts : Comparison → Int → Int → Bool
  | .eq, a, b => decide (a = b)
  | .ne, a, b => decide (a ≠ b)
  | .lt, a, b => decide (a < b)
  | .le, a, b => decide (a ≤ b)
  | .gt, a, b => decide (a > b)
  | .ge, a, b => decide (a ≥ b)

theorem allows_compare (a b : Int) : c.allows (compare a b) = c.onInts a b := by
  rcases lt_trichotomy a b with hlt | rfl | hgt
  · rw [compare_lt_iff_lt.mpr hlt]
    cases c <;> simp [allows, onInts, hlt, hlt.ne, hlt.le, hlt.not_gt]
  · rw [compare_eq_iff_eq.mpr rfl]
    cases c <;> simp [allows, onInts]
  · rw [compare_gt_iff_gt.mpr hgt]
    cases c <;> simp [allows, onInts, hgt, hgt.ne', hgt.le, hgt.not_gt]

/-- The comparison of the numbers nearest to two integers: different integers with the same nearest
number count as equal. -/
def onNearest (a b : Int) : Bool :=
  if Binary64.ofInt a = Binary64.ofInt b then c.onInts a a else c.onInts a b

theorem onNearest_of_ne {a b : Int} (h : a = b ∨ Binary64.ofInt a ≠ Binary64.ofInt b) :
    c.onNearest a b = c.onInts a b := by
  rcases h with rfl | hne
  · exact if_pos rfl
  · exact if_neg hne

theorem onNearest_of_small {a b : Int} (ha : a.natAbs ≤ 2 ^ 53) (hb : b.natAbs ≤ 2 ^ 53) :
    c.onNearest a b = c.onInts a b := by
  by_cases hsame : Binary64.ofInt a = Binary64.ofInt b
  · exact c.onNearest_of_ne (.inl (Binary64.ofInt_injOn ha hb hsame))
  · exact c.onNearest_of_ne (.inr hsame)

/-- Equality goes through the order of the nearest numbers, as the other comparisons do. -/
theorem result_of_order {v w : Value} {x y : Binary64} {o : Ordering} (hv : v.number? = some x)
    (hw : w.number? = some y) (h : x.compare? y = some o) :
    c.apply? v w = some (c.allows o) := by
  have hnull {v : Value} {x : Binary64} (hv : v.number? = some x) : v.isNull = false := by
    cases v with
    | null => exact nomatch hv
    | _ => rfl
  have hsame : sameValue v w = (o == .eq) := by
    simp only [sameValue, hv, hw, Binary64.same, h]
    rfl
  have horder : order? v w = some o := by
    simp only [order?, hv, hw, h]
  unfold Comparison.apply?
  cases c with
  | eq => exact congrArg some hsame
  | ne => exact congrArg (fun b => some !b) hsame
  | _ =>
    simp only [hnull hv, hnull hw, Bool.or_self, Bool.false_eq_true, if_false, horder,
      Option.map_some]

theorem result_of_ints (a b : Int64) :
    c.apply? (.int a) (.int b) = some (c.onNearest a.toInt b.toInt) := by
  rw [c.result_of_order rfl rfl (Binary64.compare?_ofInt a.toInt b.toInt), onNearest]
  split
  · rw [← allows_compare, compare_eq_iff_eq.mpr rfl]
  · rw [allows_compare]

end Comparison

variable {c : Comparison} {x y op : String}

theorem IsName.derives {s : String} (h : IsName s) : Derives .primary [.name s] (.path s) :=
  .path (fun hnull => h.free (hnull ▸ by decide)) (fun htrue => h.free (htrue ▸ by decide))
    fun hfalse => h.free (hfalse ▸ by decide)

theorem parse_comparison (hx : IsName x) (hop : c.Written op) (hy : IsName y) :
    Expr.parse (x ++ op ++ y) = .ok (.compare (.path x) c (.path y)) := by
  have hcompared : Derives .compare [.name x, .op c, .name y] (.compare (.path x) c (.path y)) :=
    .compared c hx.derives hy.derives
  have hor : Derives .or [.name x, .op c, .name y] (.compare (.path x) c (.path y)) :=
    .or (.and (.affirmed hcompared) (List.forall_mem_nil _)) (List.forall_mem_nil _)
  rw [Expr.parse, tokens_comparison hx hop hy]
  exact treeOfTokens_eq_ok_iff.mpr hor

theorem Tree.eval_compare_ints {valueAt : String → Value} {a b : Int64} (c : Comparison)
    (ha : valueAt x = .int a) (hb : valueAt y = .int b) :
    (Tree.compare (.path x) c (.path y)).eval valueAt =
      .ok (.bool (c.onNearest a.toInt b.toInt)) := by
  rw [Tree.eval, Tree.eval, Tree.eval, ha, hb]
  dsimp only [bind, Except.bind]
  rw [c.result_of_ints]
  rfl

end Expr

namespace Test

open SqlMapper.Expr

/-- Two names that stand for integers, compared in any of the six ways and written as a sign or as a
word. The result is that of comparing the integers, unless these are different ones with the same
nearest number, which count as equal. Up to `2 ^ 53` on both sides of zero the result is that of
comparing the integers in any case. -/
theorem value_comparison_of_ints {ctx : Context} {x y op : String} {c : Comparison} {a b : Int64}
    (hx : IsName x) (hop : c.Written op) (hy : IsName y)
    (ha : ctx.valueAt x = .int a) (hb : ctx.valueAt y = .int b) :
    ∃ (t : Test) (result : Bool), Test.parse (x ++ op ++ y) = .ok t ∧
      t.value ctx.valueAt = .ok (.bool result) ∧ t.holds ctx.valueAt = .ok result ∧
      (a = b ∨ Binary64.ofInt a.toInt ≠ Binary64.ofInt b.toInt →
        result = c.onInts a.toInt b.toInt) ∧
      (Binary64.ofInt a.toInt = Binary64.ofInt b.toInt → result = c.onInts a.toInt a.toInt) ∧
      (a.toInt.natAbs ≤ 2 ^ 53 → b.toInt.natAbs ≤ 2 ^ 53 →
        result = c.onInts a.toInt b.toInt) := by
  have hparse : Test.parse (x ++ op ++ y) =
      .ok ⟨x ++ op ++ y, .compare (.path x) c (.path y)⟩ := by
    rw [Test.parse, parse_comparison hx hop hy]
  have heval := Tree.eval_compare_ints c ha hb
  refine ⟨_, c.onNearest a.toInt b.toInt, hparse, ?_, ?_, fun hexact => ?_, fun hsame => ?_,
    c.onNearest_of_small⟩
  · rw [value, heval]
  · rw [holds, value, heval]
    rfl
  · exact c.onNearest_of_ne (hexact.imp_left (congrArg _))
  · exact if_pos hsame

/-- Above `2 ^ 53` integers that are two apart are told apart, here by a word. -/
theorem holds_lt_of_great_ints :
    ∃ t : Test, Test.parse "first lt last" = .ok t ∧
      t.holds (Context.start (.map [("first", .int 9007199254740992),
        ("last", .int 9007199254740994)]) none).valueAt = .ok true := by
  have hfirst : IsName "first" :=
    ⟨⟨'f', "irst".toList, rfl, by decide, List.all_eq_true.mp (by decide)⟩, by decide⟩
  have hlast : IsName "last" :=
    ⟨⟨'l', "ast".toList, rfl, by decide, List.all_eq_true.mp (by decide)⟩, by decide⟩
  have hop : Comparison.lt.Written (" " ++ Comparison.lt.word ++ " ") :=
    .word (by decide) (by decide) (by decide) (by decide)
  have ha : (Context.start (.map [("first", .int 9007199254740992),
      ("last", .int 9007199254740994)]) none).valueAt "first" = .int 9007199254740992 := by decide
  have hb : (Context.start (.map [("first", .int 9007199254740992),
      ("last", .int 9007199254740994)]) none).valueAt "last" = .int 9007199254740994 := by decide
  obtain ⟨t, result, hparse, -, hholds, hexact, -, -⟩ :=
    value_comparison_of_ints hfirst hop hlast ha hb
  rw [hexact (.inr (by decide +kernel))] at hholds
  exact ⟨t, hparse, hholds⟩

/-- Two neighbours above `2 ^ 53` that count as equal. -/
theorem holds_eq_of_neighbours :
    ∃ t : Test, Test.parse "first == last" = .ok t ∧
      t.holds (Context.start (.map [("first", .int 9007199254740993),
        ("last", .int 9007199254740992)]) none).valueAt = .ok true ∧
      Comparison.eq.onInts 9007199254740993 9007199254740992 = false := by
  refine ⟨⟨"first == last", .compare (.path "first") .eq (.path "last")⟩, by cbv, ?_, by decide⟩
  have ha : (Context.start (.map [("first", .int 9007199254740993),
      ("last", .int 9007199254740992)]) none).valueAt "first" = .int 9007199254740993 := by decide
  have hb : (Context.start (.map [("first", .int 9007199254740993),
      ("last", .int 9007199254740992)]) none).valueAt "last" = .int 9007199254740992 := by decide
  have hsame : Comparison.eq.onNearest (9007199254740993 : Int64).toInt
      (9007199254740992 : Int64).toInt = true := by decide +kernel
  rw [holds, value, Tree.eval_compare_ints _ ha hb, hsame]
  rfl

end Test
end SqlMapper
