import SqlMapper.Proofs.Sql.Rendering
import SqlMapper.Proofs.Sql.Trimming

/-!
Parts of a `WHERE` and of a `SET`, each under a test of its own. Whichever parts are enabled, the
clause has their texts with a joint between any two of them and none at its ends.
-/

namespace SqlMapper

open Text

structure Criterion where
  test : Test
  word : String
  gap : Char
  condition : String
  connects : String.ofList (upper word.toList) ∈ ["AND", "OR"]
  separates : gap ∈ [' ', '\n', '\r', '\t']
  trimmed : trim condition = condition
  nonempty : condition ≠ ""

structure Assignment where
  test : Test
  text : String
  trimmed : trim text = text
  nonempty : text ≠ ""

def Test.isMet (t : Test) (ctx : Context) : Bool :=
  match t.holds ctx.valueAt with
  | .ok b => b
  | .error _ => false

def Fragment.selection {α : Type} (test : α → Test) (text : α → String) (parts : List α) :
    Fragment :=
  .sequence (parts.map fun p => .cond (test p) (.text (text p)))

namespace Criterion

def connective (p : Criterion) : String := p.word.push p.gap

def text (p : Criterion) : String := p.connective ++ p.condition

def clause (criteria : List Criterion) : Fragment :=
  .trim .whereClause (.selection Criterion.test text criteria)

end Criterion

def Assignment.clause (assignments : List Assignment) : Fragment :=
  .trim .setClause (.selection Assignment.test (fun p => p.text ++ ",") assignments)

/-! Texts put together. -/

namespace Text

theorem IsTrimmed.append {s t : String} (hs : IsTrimmed s.toList) (ht : IsTrimmed t.toList)
    (between : String) : IsTrimmed (s ++ between ++ t).toList := by
  rw [String.toList_append, String.toList_append]
  exact hs.surround between.toList ht

theorem IsTrimmed.intercalate {texts : List String} (hne : texts ≠ [])
    (h : ∀ s ∈ texts, IsTrimmed s.toList) (between : String) :
    IsTrimmed (between.intercalate texts).toList := by
  induction texts with
  | nil => exact absurd rfl hne
  | cons s texts ih =>
    obtain ⟨hs, htexts⟩ := List.forall_mem_cons.mp h
    by_cases hlast : texts = []
    · subst hlast
      rwa [String.intercalate_singleton]
    · rw [String.intercalate_cons_of_ne_nil hlast]
      exact hs.append (ih hlast htexts) between

theorem IsTrimmed.append_comma {s : String} (hs : IsTrimmed s.toList) :
    IsTrimmed (s ++ ",").toList := by
  have hcomma : IsTrimmed ",".toList := ⟨⟨',', [], rfl, rfl⟩, ⟨[], ',', rfl, rfl⟩⟩
  have hsplit : s ++ "," = s ++ "" ++ "," := by rw [String.append_empty]
  rw [hsplit]
  exact hs.append hcomma ""

/-- A comma behind every text is one between any two of them and one at the end. -/
theorem joined_commas {texts : List String} (hne : texts ≠ []) :
    Context.joined (texts.map (· ++ ",")) = ", ".intercalate texts ++ "," := by
  unfold Context.joined
  induction texts with
  | nil => exact absurd rfl hne
  | cons s texts ih =>
    by_cases hlast : texts = []
    · subst hlast
      rw [List.map_singleton, String.intercalate_singleton, String.intercalate_singleton]
    · have hmap : texts.map (· ++ ",") ≠ [] := by simpa using hlast
      rw [List.map_cons, String.intercalate_cons_of_ne_nil hmap,
        String.intercalate_cons_of_ne_nil hlast, ih hlast]
      simp only [String.append_assoc]
      rfl

end Text

namespace Criterion

variable (p : Criterion)

theorem upper_word : upper p.word.toList = "AND".toList ∨ upper p.word.toList = "OR".toList := by
  have hconnects := p.connects
  simp only [List.mem_cons, List.not_mem_nil, or_false] at hconnects
  rcases hconnects with hand | hor
  · left
    rw [← hand, String.toList_ofList]
  · right
    rw [← hor, String.toList_ofList]

/-- A connective begins with a letter. -/
theorem isTrimmed_connective_append {rest : String} (hrest : IsTrimmed rest.toList) :
    IsTrimmed (p.connective ++ rest).toList := by
  obtain ⟨init, last, hinit, hlast⟩ := hrest.ending
  obtain ⟨c, letters, hword⟩ : ∃ c letters, p.word.toList = c :: letters := by
    apply List.exists_cons_of_ne_nil
    intro hnil
    rcases p.upper_word with hupper | hupper
    all_goals
      rw [hnil] at hupper
      exact absurd hupper (by decide)
  have hc : isBlank c = false := by
    rw [← isBlank_toUpper]
    rcases p.upper_word with hupper | hupper
    all_goals
      rw [hword, upper, List.map_cons] at hupper
      rw [(List.cons.inj hupper).1]
      rfl
  constructor
  · refine ⟨c, letters ++ p.gap :: rest.toList, ?_, hc⟩
    rw [connective, String.toList_append, String.toList_push, hword]
    simp
  · refine ⟨p.connective.toList ++ init, last, ?_, hlast⟩
    rw [String.toList_append, hinit, List.append_assoc]

theorem isTrimmed_condition : IsTrimmed p.condition.toList := .of_trim_eq p.trimmed p.nonempty

theorem isTrimmed_text : IsTrimmed p.text.toList :=
  p.isTrimmed_connective_append p.isTrimmed_condition

end Criterion

/-! Cutting the joints off. -/

namespace Trim

variable {t : Trim} {cs lead rest : List Char}

theorem applyChars_of_isTrimmed (h : IsTrimmed cs) :
    t.applyChars cs = t.addClosing (t.cutEnd (t.addOpening (t.cutStart cs))) := by
  unfold applyChars
  rw [h.trimChars_eq]
  obtain ⟨c, rest, rfl, -⟩ := h.start
  rfl

/-- An override is cut off, whatever its case, if no other one begins like it. -/
theorem cutStart_append {o : String} (ho : o ∈ t.openingOverrides) (hlead : upper lead = o.toList)
    (hdistinct : ∀ o₁ ∈ t.openingOverrides, ∀ o₂ ∈ t.openingOverrides,
      o₁.toList <+: o₂.toList → o₁ = o₂)
    (hrest : IsTrimmed rest) : t.cutStart (lead ++ rest) = rest := by
  have hstarts : o.toList <+: upper (lead ++ rest) := by
    rw [upper_append, hlead]
    exact List.prefix_append _ _
  -- The first override that is at the start of the text is this one.
  have hfind : t.openingOverrides.find? (fun o => o.toList.isPrefixOf (upper (lead ++ rest))) =
      some o := by
    cases hfirst : t.openingOverrides.find? fun o => o.toList.isPrefixOf (upper (lead ++ rest)) with
    | none =>
      have hno := List.find?_eq_none.mp hfirst o ho
      exact absurd (List.isPrefixOf_iff_prefix.mpr hstarts) hno
    | some first =>
      have hmem := List.mem_of_find?_eq_some hfirst
      have hprefix : first.toList <+: upper (lead ++ rest) := by
        have hfirst := List.find?_some hfirst
        exact List.isPrefixOf_iff_prefix.mp hfirst
      -- Both are at the start of the text, so one of them is at the start of the other.
      rcases List.prefix_or_prefix_of_prefix hprefix hstarts with hle | hle
      · rw [hdistinct first hmem o ho hle]
      · rw [hdistinct o ho first hmem hle]
  have hlength : lead.length = o.length := by
    rw [← length_upper, hlead, String.length_toList]
  unfold cutStart
  rw [hfind]
  dsimp only
  rw [List.drop_left' hlength, hrest.dropBlanks_eq]

theorem mem_openingOverrides_whereClause (o : String) : o ∈ whereClause.openingOverrides ↔
    o ∈ ["AND ", "OR ", "AND\n", "OR\n", "AND\r", "OR\r", "AND\t", "OR\t"] := by
  unfold whereClause arrange
  rw [List.mem_mergeSort]
  exact Iff.rfl

/-- Connectives are told apart by their first two characters, and those of one word by the blank
behind it. -/
theorem openingOverrides_whereClause_distinct : ∀ o₁ ∈ whereClause.openingOverrides,
    ∀ o₂ ∈ whereClause.openingOverrides, o₁.toList <+: o₂.toList → o₁ = o₂ := by
  simp only [mem_openingOverrides_whereClause]
  decide

theorem mem_openingOverrides_connective (p : Criterion) :
    String.ofList (upper p.connective.toList) ∈ whereClause.openingOverrides := by
  have hsplit : String.ofList (upper p.connective.toList) =
      String.ofList (upper p.word.toList) ++ String.ofList (upper [p.gap]) := by
    rw [Criterion.connective, String.toList_push, upper_append, String.ofList_append]
  have hword := p.connects
  have hgap := p.separates
  rw [mem_openingOverrides_whereClause, hsplit]
  generalize String.ofList (upper p.word.toList) = word at hword ⊢
  generalize p.gap = gap at hgap ⊢
  -- Two words and four blanks.
  simp only [List.mem_cons, List.not_mem_nil, or_false] at hword hgap
  rcases hword with rfl | rfl
  all_goals
    rcases hgap with rfl | rfl | rfl | rfl
    all_goals decide

theorem apply_whereClause (p : Criterion) {rest : String} (hrest : IsTrimmed rest.toList) :
    whereClause.apply (p.connective ++ rest) = "WHERE " ++ rest := by
  have hcut : whereClause.cutStart (p.connective ++ rest).toList = rest.toList := by
    rw [String.toList_append]
    apply cutStart_append (mem_openingOverrides_connective p) _
      openingOverrides_whereClause_distinct hrest
    rw [String.toList_ofList]
  rw [apply, applyChars_of_isTrimmed (p.isTrimmed_connective_append hrest), hcut]
  change String.ofList ("WHERE ".toList ++ rest.toList) = _
  rw [← String.toList_append, String.ofList_toList]

theorem setClause_eq : setClause = ⟨some "SET", [], none, [","]⟩ := by
  rw [setClause, arrange]
  exact congrArg _ (List.mergeSort_singleton _)

/-- A `SET` clause cuts the last comma off a list of assignments. -/
theorem apply_setClause {list : String} (h : IsTrimmed list.toList) :
    setClause.apply (list ++ ",") = "SET " ++ list := by
  have hopening : setClause.addOpening (setClause.cutStart (list ++ ",").toList) =
      ("SET ".toList ++ list.toList) ++ [','] := by
    rw [String.toList_append]
    rfl
  -- The comma at the end is covered whole, and nothing before it is a blank.
  have hcovered : covered? (("SET ".toList ++ list.toList) ++ [',']) ",".toList = some 1 := by
    have hends : ",".toList <:+ upper (("SET ".toList ++ list.toList) ++ [',']) := by
      rw [upper_append]
      exact List.suffix_append _ _
    unfold covered?
    rw [if_pos (List.isSuffixOf_iff_suffix.mpr hends)]
    rfl
  have hcut : setClause.cutEnd (("SET ".toList ++ list.toList) ++ [',']) =
      "SET ".toList ++ list.toList := by
    rw [setClause_eq, cutEnd]
    dsimp only
    rw [List.findSome?_singleton, hcovered]
    dsimp only
    rw [List.length_append, List.length_singleton, Nat.add_sub_cancel, List.take_left,
      h.dropBlanksEnd_append]
  rw [apply, applyChars_of_isTrimmed h.append_comma, hopening, hcut]
  change String.ofList ("SET ".toList ++ list.toList) = _
  rw [← String.toList_append, String.ofList_toList]

end Trim

/-! Rendering optional texts. -/

theorem Context.append_of_isTrimmed {s : String} (h : IsTrimmed s.toList) (ctx : Context) :
    ctx.append s = { ctx with written := ctx.written ++ [s] } := by
  rw [append, h.isBlankText_eq, h.trim_eq]
  rfl

namespace Fragment

variable {α : Type} {test : α → Test} {text : α → String} {parts : List α} {ctx : Context}

theorem run_cond_text {t : Test} {s : String} {b : Bool} (hs : IsTrimmed s.toList)
    (ht : t.holds ctx.valueAt = .ok b) : (render (.cond t (.text s))).run ctx =
      (.ok b, if b then { ctx with written := ctx.written ++ [s] } else ctx) := by
  have hholds : (holds t).run ctx = (.ok b, ctx) := by
    rw [holds, Render.run_ofContext, ht]
  rw [render, Render.run_bind, hholds]
  cases b with
  | false => rfl
  | true =>
    rw [if_pos rfl, ← Context.append_of_isTrimmed hs]
    rfl

/-- A selection writes the texts whose tests hold, in their order. -/
theorem run_selection (htexts : ∀ p ∈ parts, IsTrimmed (text p).toList)
    (htests : ∀ p ∈ parts, ∃ b, (test p).holds ctx.valueAt = .ok b) :
    (render (selection test text parts)).run ctx =
      (.ok (!(parts.filter fun p => (test p).isMet ctx).isEmpty),
        { ctx with
          written := ctx.written ++ (parts.filter fun p => (test p).isMet ctx).map text }) := by
  unfold selection
  rw [render]
  -- On the parts, in any buffer: what was written before changes no test.
  induction parts generalizing ctx with
  | nil =>
    change (_, ctx) = (_, { ctx with written := ctx.written ++ [] })
    rw [List.append_nil]
    rfl
  | cons p parts ih =>
    obtain ⟨htext, htexts⟩ := List.forall_mem_cons.mp htexts
    obtain ⟨⟨b, hb⟩, htests⟩ := List.forall_mem_cons.mp htests
    have hmet : (test p).isMet ctx = b := by rw [Test.isMet, hb]
    rw [List.map_cons, render.renderAll, Render.run_bind, run_cond_text htext hb,
      List.filter_cons, hmet]
    cases b with
    | false =>
      -- Nothing is written, and the others are as before.
      dsimp only
      rw [if_neg Bool.false_ne_true, Render.run_bind, ih htexts htests]
      rfl
    | true =>
      let after : Context := { ctx with written := ctx.written ++ [text p] }
      have htests' : ∀ q ∈ parts, ∃ b, (test q).holds after.valueAt = .ok b := htests
      have hrest := ih htexts htests'
      rw [List.append_assoc] at hrest
      dsimp only
      rw [if_pos rfl, Render.run_bind, hrest]
      rfl

/-- A trimmed selection is trimmed as a whole, in a buffer of its own. -/
theorem run_trim_selection (rule : Trim) (htexts : ∀ p ∈ parts, IsTrimmed (text p).toList)
    (htests : ∀ p ∈ parts, ∃ b, (test p).holds ctx.valueAt = .ok b) :
    (render (.trim rule (selection test text parts))).run ctx =
      (.ok (!(parts.filter fun p => (test p).isMet ctx).isEmpty),
        ctx.append (rule.apply (Context.joined
          ((parts.filter fun p => (test p).isMet ctx).map text)))) := by
  have htests' : ∀ p ∈ parts, ∃ b, (test p).holds ctx.enter.valueAt = .ok b := htests
  have hbody := run_selection htexts htests'
  rw [render, Render.run_bind, Render.run_isolated, hbody]
  rfl

end Fragment

namespace Criterion

def conditions (first : Criterion) (others : List Criterion) : String :=
  " ".intercalate (first.condition :: others.map text)

theorem isTrimmed_conditions (first : Criterion) (others : List Criterion) :
    IsTrimmed (first.conditions others).toList := by
  apply IsTrimmed.intercalate (List.cons_ne_nil _ _)
  intro s hs
  rcases List.mem_cons.mp hs with rfl | hs
  · exact first.isTrimmed_condition
  · obtain ⟨p, -, rfl⟩ := List.mem_map.mp hs
    exact p.isTrimmed_text

theorem joined_texts (first : Criterion) (others : List Criterion) :
    Context.joined ((first :: others).map text) = first.connective ++ first.conditions others :=
  String.intercalate_cons_append

end Criterion

namespace Assignment

variable {assignments : List Assignment}

theorem isTrimmed_list (hne : assignments ≠ []) :
    IsTrimmed (", ".intercalate (assignments.map text)).toList := by
  have htexts : assignments.map text ≠ [] := by simpa using hne
  apply IsTrimmed.intercalate htexts
  intro s hs
  obtain ⟨p, -, rfl⟩ := List.mem_map.mp hs
  exact .of_trim_eq p.trimmed p.nonempty

theorem isTrimmed_text_comma (p : Assignment) : IsTrimmed (p.text ++ ",").toList :=
  (IsTrimmed.of_trim_eq p.trimmed p.nonempty).append_comma

theorem joined_texts (hne : assignments ≠ []) :
    Context.joined (assignments.map fun p => p.text ++ ",") =
      ", ".intercalate (assignments.map text) ++ "," := by
  have htexts : assignments.map text ≠ [] := by simpa using hne
  rw [← joined_commas htexts, List.map_map]
  rfl

end Assignment

/-- Clauses out of whichever parts are enabled, if all tests can be evaluated. A `WHERE` has the
first of the enabled conditions without its connective, and then the others with theirs; a `SET` has
the enabled assignments with commas between them. Without an enabled part nothing is written. -/
theorem render_clauses (ctx : Context) :
    (∀ criteria : List Criterion, (∀ p ∈ criteria, ∃ b, p.test.holds ctx.valueAt = .ok b) →
      (Fragment.render (Criterion.clause criteria)).run ctx =
        match criteria.filter (·.test.isMet ctx) with
        | [] => (.ok false, ctx)
        | first :: others => (.ok true, { ctx with written := ctx.written ++
            ["WHERE " ++ " ".intercalate (first.condition :: others.map Criterion.text)] })) ∧
    ∀ assignments : List Assignment, (∀ p ∈ assignments, ∃ b, p.test.holds ctx.valueAt = .ok b) →
      (Fragment.render (Assignment.clause assignments)).run ctx =
        match assignments.filter (·.test.isMet ctx) with
        | [] => (.ok false, ctx)
        | first :: others => (.ok true, { ctx with written := ctx.written ++
            ["SET " ++ ", ".intercalate ((first :: others).map Assignment.text)] }) := by
  constructor
  · intro criteria htests
    rw [Criterion.clause, Fragment.run_trim_selection _ (fun p _ => p.isTrimmed_text) htests]
    cases criteria.filter (·.test.isMet ctx) with
    | nil => rfl
    | cons first others =>
      have hconditions := first.isTrimmed_conditions others
      have hword : IsTrimmed "WHERE".toList :=
        ⟨⟨'W', "HERE".toList, rfl, rfl⟩, ⟨"WHER".toList, 'E', rfl, rfl⟩⟩
      have hclause : IsTrimmed ("WHERE " ++ first.conditions others).toList :=
        hword.append hconditions " "
      rw [Criterion.joined_texts, Trim.apply_whereClause first hconditions,
        Context.append_of_isTrimmed hclause]
      rfl
  · intro assignments htests
    rw [Assignment.clause, Fragment.run_trim_selection _ (fun p _ => p.isTrimmed_text_comma) htests]
    cases assignments.filter (·.test.isMet ctx) with
    | nil => rfl
    | cons first others =>
      have hlist := Assignment.isTrimmed_list (List.cons_ne_nil first others)
      have hword : IsTrimmed "SET".toList :=
        ⟨⟨'S', "ET".toList, rfl, rfl⟩, ⟨"SE".toList, 'T', rfl, rfl⟩⟩
      have hclause : IsTrimmed
          ("SET " ++ ", ".intercalate ((first :: others).map Assignment.text)).toList :=
        hword.append hlist " "
      rw [Assignment.joined_texts (List.cons_ne_nil first others), Trim.apply_setClause hlist,
        Context.append_of_isTrimmed hclause]
      rfl

def flagged : Context := .start (.map [("named", .bool true), ("sorted", .bool true)]) none

def orderCriteria : List Criterion :=
  [⟨⟨"open", .path "open"⟩, "AND", ' ', "state = 1", by decide, by decide, by decide, by decide⟩,
    ⟨⟨"named", .path "named"⟩, "oR", '\n', "OR_NAME = 'and '", by decide, by decide, by decide,
      by decide⟩,
    ⟨⟨"sorted", .path "sorted"⟩, "And", '\t', "rank > 2", by decide, by decide, by decide,
      by decide⟩]

theorem render_clauses_orderCriteria :
    (∀ p ∈ orderCriteria, ∃ b, p.test.holds flagged.valueAt = .ok b) ∧
      (Fragment.render (Criterion.clause orderCriteria)).run flagged =
        (.ok true, { flagged with written := ["WHERE OR_NAME = 'and ' And\trank > 2"] }) := by
  have htests : ∀ p ∈ orderCriteria, ∃ b, p.test.holds flagged.valueAt = .ok b := by
    intro p hp
    simp only [orderCriteria, List.mem_cons, List.not_mem_nil, or_false] at hp
    rcases hp with rfl | rfl | rfl
    all_goals exact ⟨_, rfl⟩
  have hrun := (render_clauses flagged).1 orderCriteria htests
  have hmet : orderCriteria.filter (·.test.isMet flagged) = orderCriteria.drop 1 := rfl
  rw [hmet] at hrun
  exact ⟨htests, hrun⟩

end SqlMapper
