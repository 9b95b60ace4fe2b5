import SqlMapper.Proofs.Sql.Slots
import SqlMapper.Proofs.Sql.Trimming

/-!
How a loop renames its variables in placeholders. Generated names differ for any two variables and
any two passes, and no variable has a name like them.
-/

namespace SqlMapper

open Text

section Segments

variable {xs rest : List Char} {separator : Char}

theorem before_append (h : separator ∉ xs) (hrest : rest = [] ∨ rest.head? = some separator) :
    before separator (xs ++ rest) = xs := by
  have hall : ∀ c ∈ xs, decide (c ≠ separator) := fun c hc => by
    simpa using ne_of_mem_of_not_mem hc h
  rw [before, List.takeWhile_append_of_pos hall]
  rcases rest with _ | ⟨c, rest⟩
  · simp
  · obtain rfl : c = separator := by simpa using hrest
    simp

theorem dropWhile_append (h : separator ∉ xs) (hrest : rest = [] ∨ rest.head? = some separator) :
    (xs ++ rest).dropWhile (· ≠ separator) = rest := by
  have hall : ∀ c ∈ xs, decide (c ≠ separator) := fun c hc => by
    simpa using ne_of_mem_of_not_mem hc h
  rw [List.dropWhile_append_of_pos hall]
  rcases rest with _ | ⟨c, rest⟩
  · rfl
  · obtain rfl : c = separator := by simpa using hrest
    simp

theorem head?_dropWhile (separator : Char) (cs : List Char) :
    cs.dropWhile (· ≠ separator) = [] ∨ (cs.dropWhile (· ≠ separator)).head? = some separator := by
  rcases h : cs.dropWhile (· ≠ separator) with _ | ⟨c, rest⟩
  · exact .inl rfl
  · have hne : cs.dropWhile (· ≠ separator) ≠ [] := by
      rw [h]
      exact List.cons_ne_nil c rest
    have hc := List.head_dropWhile_not _ hne
    simp only [h, List.head_cons] at hc
    exact .inr (by simpa using hc)

theorem not_mem_before (separator : Char) (cs : List Char) : separator ∉ before separator cs := by
  intro h
  simpa using List.mem_takeWhile_imp h

end Segments

theorem isBlank_of_isDigit {c : Char} (h : c.isDigit) : isBlank c = false := by
  have hbounds : 48 ≤ c.toNat ∧ c.toNat ≤ 57 := by
    simpa [Char.isDigit, UInt32.le_iff_toNat_le] using h
  simp only [isBlank, Bool.or_eq_false_iff, Bool.and_eq_false_iff, decide_eq_false_iff_not,
    beq_eq_false_iff_ne]
  omega

namespace Placeholder

def head (content : List Char) : String :=
  .ofList (before '.' (property content))

def withHead (name : String) (content : List Char) : List Char :=
  name.toList ++ (property content).dropWhile (· ≠ '.') ++ Loop.options content

variable {content : List Char}

/-- After the property stand blanks, and then nothing or the comma before the options. -/
theorem exists_options_eq (hne : property content ≠ []) : ∃ trail rest, (∀ c ∈ trail, isBlank c) ∧
    ',' ∉ trail ∧ (rest = [] ∨ rest.head? = some ',') ∧ Loop.options content = trail ++ rest := by
  obtain ⟨trail, htrail, hdrop⟩ := exists_dropBlanks_eq (before ',' content)
  refine ⟨trail, content.dropWhile (· ≠ ','), htrail, ?_, head?_dropWhile ',' content, ?_⟩
  -- The blanks were cut off in front of the first comma.
  · intro hmem
    refine not_mem_before ',' content ((List.dropWhile_sublist isBlank).mem ?_)
    rw [← dropBlanks, hdrop]
    exact List.mem_append_right _ hmem
  · have hsplit : dropBlanks content =
        property content ++ (trail ++ content.dropWhile (· ≠ ',')) := by
      have hcontent : before ',' content ++ content.dropWhile (· ≠ ',') = content :=
        List.takeWhile_append_dropWhile
      have hnonempty : (before ',' content).dropWhile isBlank ≠ [] := by
        rw [← dropBlanks, hdrop]
        exact List.append_ne_nil_of_left_ne_nil hne _
      rw [← hcontent, dropBlanks, List.dropWhile_append, if_neg (by simpa using hnonempty),
        ← dropBlanks, hdrop, List.append_assoc, hcontent]
      rfl
    unfold Loop.options
    split
    · rename_i hnil
      exact absurd hnil hne
    · rw [hsplit, List.drop_left]

structure IsSegment (name : String) : Prop where
  ne_nil : name.toList ≠ []
  head : isBlank (name.toList.head ne_nil) = false
  last : isBlank (name.toList.getLast ne_nil) = false
  noComma : ',' ∉ name.toList
  noDot : '.' ∉ name.toList

/-- Another first segment leaves what follows it in the property. -/
theorem property_withHead {name : String} (hname : IsSegment name) (hne : property content ≠ []) :
    property (withHead name content) = name.toList ++ (property content).dropWhile (· ≠ '.') := by
  obtain ⟨trail, rest, htrail, hcomma, hrest, hoptions⟩ := exists_options_eq hne
  have hbelow : (property content).dropWhile (· ≠ '.') <:+ property content :=
    List.dropWhile_suffix _
  have hproperty : ',' ∉ property content := fun hmem =>
    not_mem_before ',' content (mem_of_mem_trimChars hmem)
  have hbefore : before ',' (withHead name content) =
      name.toList ++ (property content).dropWhile (· ≠ '.') ++ trail := by
    rw [withHead, hoptions, ← List.append_assoc]
    refine before_append ?_ hrest
    simp only [List.mem_append, not_or]
    exact ⟨⟨hname.noComma, fun hmem => hproperty (hbelow.mem hmem)⟩, hcomma⟩
  have hne' : name.toList ++ (property content).dropWhile (· ≠ '.') ≠ [] :=
    List.append_ne_nil_of_left_ne_nil hname.ne_nil _
  rw [property, hbefore]
  refine trimChars_append hne' ?_ ?_ htrail
  · rw [List.head_append_of_ne_nil hname.ne_nil]
    exact hname.head
  -- The text ends as the property did, or with the new segment if that was all.
  · by_cases hnil : (property content).dropWhile (· ≠ '.') = []
    · simp only [hnil, List.append_nil]
      exact hname.last
    · rw [List.getLast_append_of_ne_nil _ hnil, hbelow.getLast hnil]
      exact isBlank_getLast_trimChars hne

theorem head_withHead {name : String} (hname : IsSegment name) (hne : property content ≠ []) :
    head (withHead name content) = name := by
  rw [head, property_withHead hname hne, before_append hname.noDot (head?_dropWhile '.' _),
    String.ofList_toList]

end Placeholder

namespace Loop

open Placeholder

def isGenerated (name : List Char) : Bool :=
  "__frch_".toList.isPrefixOf name

def reservedNames : List String :=
  [Context.parameterName, Context.databaseName]

/-- What a loop may call its item or its index for its placeholders to mean what they say. -/
structure IsVariable (name : String) : Prop where
  ne_empty : name ≠ ""
  noDot : '.' ∉ name.toList
  noComma : ',' ∉ name.toList
  isPlain : isPlainText name
  notReserved : name ∉ reservedNames
  notGenerated : ¬ isGenerated name.toList

instance (name : String) : Decidable (IsVariable name) :=
  decidable_of_iff (name ≠ "" ∧ '.' ∉ name.toList ∧ ',' ∉ name.toList ∧ isPlainText name ∧
      name ∉ reservedNames ∧ ¬ isGenerated name.toList)
    ⟨fun ⟨ne, dot, comma, plain, reserved, generated⟩ => ⟨ne, dot, comma, plain, reserved, generated⟩,
      fun h => ⟨h.ne_empty, h.noDot, h.noComma, h.isPlain, h.notReserved, h.notGenerated⟩⟩

variable {var : String} {n : Nat}

theorem toList_generated (var : String) (n : Nat) :
    (generated var n).toList = "__frch_".toList ++ (var.toList ++ '_' :: Nat.toDigits 10 n) := by
  simp [generated]

theorem isGenerated_generated (var : String) (n : Nat) : isGenerated (generated var n).toList := by
  rw [toList_generated]
  exact List.isPrefixOf_iff_prefix.mpr (List.prefix_append _ _)

theorem isDigit_of_mem_toDigits {c : Char} (h : c ∈ Nat.toDigits 10 n) : c.isDigit :=
  Nat.isDigit_of_mem_toDigits (by decide) (by decide) h

theorem not_mem_generated {c : Char} (hc : c ∉ var.toList) (hline : c ≠ '_')
    (hletter : c.isAlphanum = false) : c ∉ (generated var n).toList := by
  rw [toList_generated, List.mem_append, List.mem_append, List.mem_cons]
  rintro (h | h | h | h)
  · have hletters : "__frch_".toList.all (fun c => c == '_' || c.isAlphanum) = true := rfl
    rcases Bool.or_eq_true_iff.mp (List.all_eq_true.mp hletters c h) with heq | heq
    · exact hline (beq_iff_eq.mp heq)
    · rw [hletter] at heq
      exact nomatch heq
  · exact hc h
  · exact hline h
  · simp [Char.isAlphanum, isDigit_of_mem_toDigits h] at hletter

/-- Generated names differ for any two variables and any two passes: the number is what stands
behind the last underscore. -/
theorem generated_inj {var' : String} {n' : Nat} (h : generated var n = generated var' n') :
    var = var' ∧ n = n' := by
  have hlists := congrArg String.toList h
  rw [toList_generated, toList_generated, List.append_right_inj] at hlists
  -- A number has no underscore in it, so neither variable reaches into the other one's number.
  have hnumber (n : Nat) (as ds : List Char) : Nat.toDigits 10 n ≠ as ++ '_' :: ds := by
    intro heq
    refine Nat.underscore_not_in_toDigits (n := n) ?_
    rw [heq]
    exact List.mem_append_right as List.mem_cons_self
  have hparts : var.toList = var'.toList ∧ Nat.toDigits 10 n = Nat.toDigits 10 n' := by
    rcases List.append_eq_append_iff.mp hlists with ⟨as, hvar, hnum⟩ | ⟨as, hvar, hnum⟩
    · rcases as with _ | ⟨c, as⟩
      · simpa [hvar] using hnum
      · exact absurd (List.cons.inj hnum).2 (hnumber n as _)
    · rcases as with _ | ⟨c, as⟩
      · simpa [hvar] using hnum.symm
      · exact absurd (List.cons.inj hnum).2 (hnumber n' as _)
  have hread := congrArg (Nat.ofDigitChars 10 · 0) hparts.2
  simp only [Nat.ofDigitChars_ten_toDigits] at hread
  exact ⟨String.toList_inj.mp hparts.1, hread⟩

theorem isSegment_generated (h : IsVariable var) (n : Nat) : IsSegment (generated var n) where
  ne_nil := by simp [toList_generated]
  head := by simp [toList_generated, isBlank]
  last := by
    have hdigits : Nat.toDigits 10 n ≠ [] := Nat.toDigits_ne_nil
    have hsuffix : Nat.toDigits 10 n <:+ (generated var n).toList :=
      ⟨"__frch_".toList ++ var.toList ++ ['_'], by simp [toList_generated]⟩
    rw [← hsuffix.getLast hdigits]
    exact isBlank_of_isDigit (isDigit_of_mem_toDigits (List.getLast_mem hdigits))
  noComma := not_mem_generated h.noComma (by decide) (by decide)
  noDot := not_mem_generated h.noDot (by decide) (by decide)

theorem below?_eq_some {var name rest : List Char} :
    below? var name = some rest ↔ name = var ++ rest ∧ (rest = [] ∨ rest.head? = some '.') := by
  unfold below?
  constructor
  · intro h
    split at h
    · rename_i hstarts
      obtain ⟨suffix, rfl⟩ := List.isPrefixOf_iff_prefix.mp hstarts
      rw [List.drop_left] at h
      split at h
      · obtain rfl := Option.some.inj h
        exact ⟨rfl, .inl rfl⟩
      · obtain rfl := Option.some.inj h
        exact ⟨rfl, .inr rfl⟩
      · exact nomatch h
    · exact nomatch h
  · rintro ⟨rfl, hrest⟩
    rw [if_pos (List.isPrefixOf_iff_prefix.mpr (List.prefix_append _ _)), List.drop_left]
    rcases rest with _ | ⟨c, rest⟩
    · rfl
    · obtain rfl : c = '.' := by simpa using hrest
      rfl

/-- A name is at or below a variable when the variable is its first segment. -/
theorem below?_eq_ite (h : '.' ∉ var.toList) (name : List Char) :
    below? var.toList name =
      if .ofList (before '.' name) = var then some (name.dropWhile (· ≠ '.')) else none := by
  refine Option.ext fun rest => ?_
  rw [below?_eq_some]
  constructor
  · rintro ⟨rfl, hrest⟩
    rw [before_append h hrest, dropWhile_append h hrest, String.ofList_toList, if_pos rfl]
  · intro hsome
    split at hsome
    · rename_i heq
      obtain rfl := Option.some.inj hsome
      rw [← heq, String.toList_ofList]
      exact ⟨List.takeWhile_append_dropWhile.symm, head?_dropWhile '.' name⟩
    · exact nomatch hsome

/-- What becomes of the content of a placeholder in one pass. -/
theorem renameContent_eq {vars : List String} (hvars : ∀ var ∈ vars, IsVariable var) (n : Nat)
    (content : List Char) : renameContent vars n content =
      if head content ∈ vars then withHead (generated (head content) n) content else content := by
  have hfind : (vars.findSome? fun var => (below? var.toList (property content)).map fun rest =>
      (generated var n).toList ++ rest ++ options content) =
        if head content ∈ vars then some (withHead (generated (head content) n) content) else none := by
    -- On the variables: the first one that fits is found, and all that fit are the same.
    induction vars with
    | nil => rfl
    | cons var vars ih =>
      obtain ⟨hvar, hvars⟩ := List.forall_mem_cons.mp hvars
      rw [List.findSome?_cons, below?_eq_ite hvar.noDot, ← head]
      by_cases heq : head content = var
      · simp [heq, withHead]
      · simpa [heq] using ih hvars
  unfold renameContent
  rw [hfind]
  split
  · rfl
  · rfl

/-- A placeholder that was renamed, or named like that before, is not renamed again. -/
theorem renameContent_of_isGenerated {vars : List String} (hvars : ∀ var ∈ vars, IsVariable var)
    {n : Nat} {content : List Char} (h : isGenerated (head content).toList) :
    renameContent vars n content = content := by
  rw [renameContent_eq hvars, if_neg]
  exact fun hmem => (hvars _ hmem).notGenerated h

theorem mem_of_mem_options {c : Char} {content : List Char} (h : c ∈ options content) :
    c ∈ content := by
  unfold options at h
  split at h
  · exact h
  · exact (List.dropWhile_sublist _).mem (List.mem_of_mem_drop h)

/-- A renamed placeholder still ends where it is closed. -/
theorem not_mem_renameContent (vars : List String) (n : Nat) {content : List Char}
    (h : '\x7d' ∉ content) : '\x7d' ∉ renameContent vars n content := by
  have hproperty : '\x7d' ∉ property content := fun hc =>
    h ((List.takeWhile_sublist _).mem (mem_of_mem_trimChars hc))
  unfold renameContent
  cases hfind : vars.findSome? fun var => (below? var.toList (property content)).map fun rest =>
      (generated var n).toList ++ rest ++ options content with
  | none => exact h
  | some renamed =>
    obtain ⟨var, -, hbelow⟩ := List.exists_of_findSome?_eq_some hfind
    obtain ⟨rest, hrest, rfl⟩ := Option.map_eq_some_iff.mp hbelow
    -- The variable and the path below it make up the property, which has no brace in it.
    obtain ⟨hsplit, -⟩ := below?_eq_some.mp hrest
    rw [hsplit, List.mem_append, not_or] at hproperty
    simp only [Option.getD_some, List.mem_append, not_or]
    exact ⟨⟨not_mem_generated hproperty.1 (by decide) (by decide), hproperty.2⟩,
      fun hc => h (mem_of_mem_options hc)⟩

def renamePiece (vars : List String) (n : Nat) : Piece → Piece
  | .char c => .char c
  | .slot content => .slot (renameContent vars n content)

theorem text_renamePiece (vars : List String) (n : Nat) (p : Piece) :
    (renamePiece vars n p).text = p.replace fun content => write (renameContent vars n content) := by
  cases p with
  | char c => rfl
  | slot content => rfl

theorem content?_renamePiece (vars : List String) (n : Nat) (p : Piece) :
    (renamePiece vars n p).content? = p.content?.map (renameContent vars n) := by
  cases p with
  | char c => rfl
  | slot content => rfl

/-- Renaming changes the contents of the placeholders and nothing else. -/
theorem carries_rename {loop : Loop} {contents : List (List Char)} {n : Nat} {body text : String}
    (h : Carries body.toList contents) (hrename : loop.rename n body = .ok text) :
    Carries text.toList (contents.map (renameContent loop.vars n)) := by
  obtain ⟨ps, hbody, hps, rfl⟩ := h
  have htext : (ps.map (renamePiece loop.vars n)).flatMap Piece.text = text.toList := by
    rw [rename, pieces, ← hbody, pieces?_text hps] at hrename
    obtain rfl := Except.ok.inj hrename
    rw [String.toList_ofList, List.flatMap_map]
    exact congrArg (ps.flatMap ·) (funext (text_renamePiece loop.vars n))
  refine ⟨ps.map (renamePiece loop.vars n), htext, List.forall_mem_map.mpr fun p hp => ?_, ?_⟩
  · have hclean := hps p hp
    cases p with
    | char c => exact hclean
    | slot content =>
      exact decide_eq_true (not_mem_renameContent loop.vars n (of_decide_eq_true hclean))
  · rw [List.filterMap_map, List.map_filterMap]
    exact congrArg (ps.filterMap ·) (funext (content?_renamePiece loop.vars n))

end Loop
end SqlMapper
