import Mathlib.Data.List.Induction
import Mathlib.Data.List.TakeWhile
import SqlMapper.Sql.Loop
import SqlMapper.Sql.Trim

/-!
Where the placeholders of a text stay when the text is worked on. If hash signs, braces and
backslashes all belong to closed placeholders, no cut at an ordinary character goes through one.
-/

namespace SqlMapper

open Text

namespace Placeholder

def isPlain (c : Char) : Bool :=
  c != '#' && c != '\x7b' && c != '\x7d' && c != '\\'

def isPlainText (s : String) : Bool :=
  s.toList.all isPlain

def Piece.isClean : Piece → Bool
  | .char c => isPlain c
  | .slot content => '\x7d' ∉ content

def Piece.content? : Piece → Option (List Char)
  | .char _ => none
  | .slot content => some content

def Piece.text : Piece → List Char :=
  Piece.replace write

/-- The text is written with plain characters and placeholders of these contents, in this order. -/
def Carries (cs : List Char) (contents : List (List Char)) : Prop :=
  ∃ ps : List Piece, ps.flatMap Piece.text = cs ∧ (∀ p ∈ ps, p.isClean) ∧
    ps.filterMap Piece.content? = contents

theorem content?_append {content : List Char} (h : '\x7d' ∉ content) (rest : List Char) :
    content? (content ++ '\x7d' :: rest) = some (content, rest) := by
  induction content with
  | nil => rfl
  | cons c content ih =>
    obtain ⟨hc, hcontent⟩ := not_or.mp (List.mem_cons.not.mp h)
    rw [List.cons_append, content?, if_neg (Ne.symm hc), ih hcontent]
    rfl

theorem pieces?_plain_cons {c : Char} (h : isPlain c) (rest : List Char) :
    pieces? (c :: rest) = (pieces? rest).map (.char c :: ·) := by
  have hhash : c ≠ '#' := by rintro rfl; exact nomatch h
  have hslash : c ≠ '\\' := by rintro rfl; exact nomatch h
  rw [pieces?.eq_def]
  split
  · rename_i heq
    exact absurd heq (List.cons_ne_nil c rest)
  · rename_i heq
    exact absurd (List.cons.inj heq).1 hslash
  · rename_i heq
    exact absurd (List.cons.inj heq).1 hhash
  · rename_i heq
    obtain ⟨rfl, rfl⟩ := List.cons.inj heq
    rfl

/-- A placeholder that is written is scanned as a slot. -/
theorem pieces?_write {content : List Char} (h : '\x7d' ∉ content) (rest : List Char) :
    pieces? (write content ++ rest) = (pieces? rest).map (.slot content :: ·) := by
  have hopen : write content ++ rest = '#' :: '\x7b' :: (content ++ '\x7d' :: rest) := by
    simp [write]
  rw [hopen, pieces?]
  split
  · rename_i heq
    rw [content?_append h] at heq
    exact absurd heq (by simp)
  · rename_i heq
    rw [content?_append h] at heq
    obtain ⟨rfl, rfl⟩ := Prod.mk.inj (Option.some.inj heq)
    rfl

/-- Scanning what was written from clean pieces gives these pieces back. -/
theorem pieces?_text {ps : List Piece} (h : ∀ p ∈ ps, p.isClean) :
    pieces? (ps.flatMap Piece.text) = some ps := by
  -- On the pieces: each of them is read to its end before the scan comes to the next one.
  induction ps with
  | nil => rw [List.flatMap_nil, pieces?]
  | cons p ps ih =>
    obtain ⟨hp, hps⟩ := List.forall_mem_cons.mp h
    rw [List.flatMap_cons]
    cases p with
    | char c =>
      change pieces? (c :: ps.flatMap Piece.text) = _
      rw [pieces?_plain_cons hp, ih hps]
      rfl
    | slot content =>
      change pieces? (write content ++ ps.flatMap Piece.text) = _
      rw [pieces?_write (by simpa [Piece.isClean] using hp), ih hps]
      rfl

namespace Carries

variable {as bs cs : List Char} {contents contents' : List (List Char)}

theorem nil : Carries [] [] := ⟨[], rfl, nofun, rfl⟩

theorem of_plain (h : ∀ c ∈ cs, isPlain c) : Carries cs [] := by
  refine ⟨cs.map .char, ?_, ?_, ?_⟩
  · rw [List.flatMap_map]
    exact List.flatMap_singleton' cs
  · simpa [Piece.isClean] using h
  · rw [List.filterMap_map]
    exact List.filterMap_eq_nil_iff.mpr fun c _ => rfl

theorem append (ha : Carries as contents) (hb : Carries bs contents') :
    Carries (as ++ bs) (contents ++ contents') := by
  obtain ⟨ps, rfl, hps, rfl⟩ := ha
  obtain ⟨qs, rfl, hqs, rfl⟩ := hb
  exact ⟨ps ++ qs, List.flatMap_append, List.forall_mem_append.mpr ⟨hps, hqs⟩,
    List.filterMap_append⟩

theorem plain_append (ha : ∀ c ∈ as, isPlain c) (hb : Carries bs contents) :
    Carries (as ++ bs) contents :=
  (of_plain ha).append hb

theorem append_plain (ha : Carries as contents) (hb : ∀ c ∈ bs, isPlain c) :
    Carries (as ++ bs) contents := by
  simpa using ha.append (of_plain hb)

/-- Cutting plain characters off the start cuts no placeholder. -/
theorem of_plain_append (h : Carries (as ++ bs) contents) (ha : ∀ c ∈ as, isPlain c) :
    Carries bs contents := by
  induction as with
  | nil => exact h
  | cons c as ih =>
    obtain ⟨hc, has⟩ := List.forall_mem_cons.mp ha
    obtain ⟨ps, htext, hps, rfl⟩ := h
    refine ih ?_ has
    -- The first piece is this character: a placeholder would begin with a hash sign.
    rcases ps with _ | ⟨_ | content, ps⟩
    · exact nomatch htext
    · exact ⟨ps, (List.cons.inj htext).2, (List.forall_mem_cons.mp hps).2, rfl⟩
    · obtain rfl : '#' = c := (List.cons.inj htext).1
      exact nomatch hc

/-- Cutting plain characters off the end cuts no placeholder. -/
theorem of_append_plain (h : Carries (as ++ bs) contents) (hb : ∀ c ∈ bs, isPlain c) :
    Carries as contents := by
  induction bs using List.reverseRecOn with
  | nil => simpa using h
  | append_singleton bs c ih =>
    obtain ⟨hbs, hc⟩ := List.forall_mem_append.mp hb
    obtain ⟨ps, htext, hps, rfl⟩ := h
    refine ih ?_ hbs
    rw [← List.append_assoc] at htext
    -- What the first piece was for the start, the last one is for the end.
    rcases List.eq_nil_or_concat ps with rfl | ⟨ps, p, rfl⟩
    · exact absurd htext.symm (List.append_ne_nil_of_right_ne_nil _ (List.cons_ne_nil _ _))
    · rw [List.concat_eq_append] at htext hps ⊢
      obtain ⟨hinit, -⟩ := List.forall_mem_append.mp hps
      rw [List.flatMap_append, List.flatMap_singleton] at htext
      cases p with
      | char d => exact ⟨ps, List.append_inj_left' htext rfl, hinit, by simp [Piece.content?]⟩
      | slot content =>
        -- The last character of a placeholder is the brace that closes it.
        have hopened : ps.flatMap Piece.text ++ ('#' :: '\x7b' :: content) ++ ['\x7d'] =
            as ++ bs ++ [c] := by rwa [List.append_assoc]
        obtain rfl : '\x7d' = c := List.singleton_inj.mp (List.append_inj_right' hopened rfl)
        exact nomatch hc '\x7d' (List.mem_singleton_self _)

theorem eq_nil_of_plain (h : Carries as contents) (ha : ∀ c ∈ as, isPlain c) : contents = [] := by
  rw [← List.append_nil as] at h
  obtain ⟨ps, htext, -, rfl⟩ := h.of_plain_append ha
  rcases ps with _ | ⟨_ | _, ps⟩
  · rfl
  · exact nomatch htext
  · exact nomatch htext

end Carries

/-! Blanks are plain, so that trimming cuts no placeholder. -/

theorem isPlain_of_isBlank {c : Char} (h : isBlank c) : isPlain c := by
  by_contra hc
  have hspecial : c = '#' ∨ c = '\x7b' ∨ c = '\x7d' ∨ c = '\\' := by
    simpa [isPlain, or_iff_not_imp_left] using hc
  rcases hspecial with rfl | rfl | rfl | rfl <;> exact nomatch h

/-- A property of texts that stays when plain characters are cut off the start or the end. -/
structure Cuttable (Q : List Char → Prop) : Prop where
  start : ∀ {as bs}, (∀ c ∈ as, isPlain c) → Q (as ++ bs) → Q bs
  ending : ∀ {as bs}, (∀ c ∈ bs, isPlain c) → Q (as ++ bs) → Q as

namespace Cuttable

variable {Q : List Char → Prop} {cs : List Char}

theorem dropBlanks (hQ : Cuttable Q) (h : Q cs) : Q (Text.dropBlanks cs) := by
  rw [← List.takeWhile_append_dropWhile (p := isBlank) (l := cs)] at h
  exact hQ.start (fun c hc => isPlain_of_isBlank (List.mem_takeWhile_imp hc)) h

theorem dropBlanksEnd (hQ : Cuttable Q) (h : Q cs) : Q (Text.dropBlanksEnd cs) := by
  have hsplit : Text.dropBlanksEnd cs ++ (cs.reverse.takeWhile isBlank).reverse = cs := by
    rw [Text.dropBlanksEnd, Text.dropBlanks, ← List.reverse_append,
      List.takeWhile_append_dropWhile, List.reverse_reverse]
  rw [← hsplit] at h
  exact hQ.ending (fun c hc =>
    isPlain_of_isBlank (List.mem_takeWhile_imp (List.mem_reverse.mp hc))) h

theorem trimChars (hQ : Cuttable Q) (h : Q cs) : Q (Text.trimChars cs) :=
  hQ.dropBlanksEnd (hQ.dropBlanks h)

end Cuttable

namespace Carries

variable {cs : List Char} {contents : List (List Char)}

theorem cuttable (contents : List (List Char)) : Cuttable (Carries · contents) :=
  ⟨fun ha h => h.of_plain_append ha, fun hb h => h.of_append_plain hb⟩

theorem trimChars (h : Carries cs contents) : Carries (Text.trimChars cs) contents :=
  (cuttable contents).trimChars h

theorem eq_nil_of_blank {s : String} (hs : isBlankText s) (h : Carries s.toList contents) :
    contents = [] :=
  h.eq_nil_of_plain fun c hc => isPlain_of_isBlank (List.all_eq_true.mp hs c hc)

end Carries

inductive CarriesAll : List String → List (List Char) → Prop where
  | nil : CarriesAll [] []
  | cons {t : String} {ts : List String} {contents contents' : List (List Char)}
      (first : Carries t.toList contents) (rest : CarriesAll ts contents') :
      CarriesAll (t :: ts) (contents ++ contents')

namespace CarriesAll

variable {ts us : List String} {contents contents' : List (List Char)}

theorem singleton {t : String} (h : Carries t.toList contents) : CarriesAll [t] contents := by
  simpa using cons h nil

theorem append (ht : CarriesAll ts contents) (hu : CarriesAll us contents') :
    CarriesAll (ts ++ us) (contents ++ contents') := by
  induction ht with
  | nil => exact hu
  | cons hfirst hrest ih =>
    rw [List.append_assoc]
    exact cons hfirst ih

/-- Texts put together with a plain separator between them. -/
theorem intercalate {separator : String} (hseparator : isPlainText separator)
    (h : CarriesAll ts contents) : Carries (separator.intercalate ts).toList contents := by
  have hplain : ∀ c ∈ separator.toList, isPlain c := List.all_eq_true.mp hseparator
  rw [String.toList_intercalate]
  -- On the texts; the separator stands only in front of those that have one before them.
  induction h with
  | nil => exact Carries.nil
  | @cons t ts contents contents' hfirst hrest ih =>
    cases hrest with
    | nil => simpa using hfirst
    | cons hnext hothers =>
      rw [List.map_cons, List.map_cons, List.intercalate_cons_cons, List.append_assoc]
      exact hfirst.append (ih.plain_append hplain)

end CarriesAll

theorem isPlain_of_toUpper {c : Char} (h : isPlain c.toUpper) : isPlain c := by
  by_contra hc
  have hspecial : c = '#' ∨ c = '\x7b' ∨ c = '\x7d' ∨ c = '\\' := by
    simpa [isPlain, or_iff_not_imp_left] using hc
  rcases hspecial with rfl | rfl | rfl | rfl <;> exact nomatch h

theorem isPlain_of_upper {cs : List Char} (h : ∀ c ∈ upper cs, isPlain c) : ∀ c ∈ cs, isPlain c :=
  fun _ hc => isPlain_of_toUpper (h _ (List.mem_map_of_mem hc))

end Placeholder

namespace Trim

open Placeholder

def texts (t : Trim) : List String :=
  t.opening.toList ++ t.openingOverrides ++ (t.closing.toList ++ t.closingOverrides)

def isPlain (t : Trim) : Bool :=
  t.texts.all isPlainText

/-- Arranging overrides changes their case and their order. -/
theorem all_arrange (overrides : List String) (p : String → Bool) :
    (arrange overrides).all p = (overrides.map fun o => String.ofList (upper o.toList)).all p :=
  (List.mergeSort_perm _ _).all_eq

theorem isPlain_whereClause : whereClause.isPlain := by
  simp only [isPlain, texts, whereClause, List.all_append, all_arrange]
  decide

section Cuts

variable {t : Trim} {part : List Char} {Q : List Char → Prop}

def cutsPlain (t : Trim) : Bool :=
  (t.openingOverrides ++ t.closingOverrides).all isPlainText

theorem plain_of_mem_overrides (ht : t.cutsPlain) {s : String}
    (hs : s ∈ t.openingOverrides ++ t.closingOverrides) : ∀ c ∈ s.toList, Placeholder.isPlain c :=
  List.all_eq_true.mp (List.all_eq_true.mp ht s hs)

/-- Overrides of plain characters are cut off the start without harm to what may be cut there. -/
theorem cutStart_of_cuttable (hQ : Cuttable Q) (ht : t.cutsPlain) (h : Q part) :
    Q (t.cutStart part) := by
  unfold cutStart
  split
  · rename_i o hfind
    -- What is cut off has the letters of the override, in whatever case.
    have hplain := plain_of_mem_overrides ht
      (List.mem_append_left _ (List.mem_of_find?_eq_some hfind))
    have htake : upper (part.take o.length) = o.toList := by
      have hstarts := List.find?_some hfind
      rw [upper, List.map_take]
      exact (List.prefix_iff_eq_take.mp (List.isPrefixOf_iff_prefix.mp hstarts)).symm
    rw [← List.take_append_drop o.length part] at h
    exact hQ.dropBlanks (hQ.start (isPlain_of_upper (by rwa [htake])) h)
  · exact h

theorem plain_of_isSuffixOf {o : List Char} (ho : ∀ c ∈ o, Placeholder.isPlain c)
    (h : o.isSuffixOf (upper part)) :
    ∀ c ∈ part.drop (part.length - o.length), Placeholder.isPlain c := by
  refine isPlain_of_upper ?_
  have hdrop := List.suffix_iff_eq_drop.mp (List.isSuffixOf_iff_suffix.mp h)
  rw [length_upper] at hdrop
  rw [upper, List.map_drop, ← upper, ← hdrop]
  exact ho

/-- What an override covers of the end is plain. -/
theorem plain_of_covered? {o : List Char} (ho : ∀ c ∈ o, Placeholder.isPlain c) {n : Nat}
    (h : covered? part o = some n) :
    ∀ c ∈ part.drop (part.length - n), Placeholder.isPlain c := by
  unfold covered? at h
  split at h
  · rename_i hsuffix
    obtain rfl := Option.some.inj h
    exact plain_of_isSuffixOf ho hsuffix
  · split at h
    · rename_i hsuffix
      obtain rfl := Option.some.inj h
      -- The override counts without the blanks around it, which are plain as well.
      refine plain_of_isSuffixOf (fun c hc => ho c ?_) hsuffix.2
      have hmem : c ∈ dropBlanks o :=
        List.mem_reverse.mp (List.dropWhile_sublist _ |>.mem (List.mem_reverse.mp hc))
      exact (List.dropWhile_sublist _).mem hmem
    · exact nomatch h

theorem cutEnd_of_cuttable (hQ : Cuttable Q) (ht : t.cutsPlain) (h : Q part) :
    Q (t.cutEnd part) := by
  unfold cutEnd
  split
  · rename_i n hfind
    obtain ⟨o, ho, hcovered⟩ := List.exists_of_findSome?_eq_some hfind
    have hplain := plain_of_mem_overrides ht (List.mem_append_right _ ho)
    rw [← List.take_append_drop (part.length - n) part] at h
    exact hQ.dropBlanksEnd (hQ.ending (plain_of_covered? hplain hcovered) h)
  · exact h

/-- Trimming keeps what stays under cuts and under the texts that the trim puts around. -/
theorem apply_of_cuttable (hQ : Cuttable Q) (ht : t.cutsPlain)
    (hopening : ∀ cs, Q cs → Q (t.addOpening cs)) (hclosing : ∀ cs, Q cs → Q (t.addClosing cs))
    {part : String} (h : Q part.toList) : Q (t.apply part).toList := by
  rw [apply, String.toList_ofList]
  have htrimmed := hQ.trimChars h
  unfold applyChars
  split
  · rename_i heq
    rwa [heq] at htrimmed
  · exact hclosing _ (cutEnd_of_cuttable hQ ht
      (hopening _ (cutStart_of_cuttable hQ ht htrimmed)))

end Cuts

section Carries

variable {t : Trim} {part : List Char} {contents : List (List Char)}

theorem plain_of_mem_texts (ht : t.isPlain) {s : String} (hs : s ∈ t.texts) :
    ∀ c ∈ s.toList, Placeholder.isPlain c :=
  List.all_eq_true.mp (List.all_eq_true.mp ht s hs)

theorem cutsPlain_of_isPlain (ht : t.isPlain) : t.cutsPlain := by
  refine List.all_eq_true.mpr fun s hs => List.all_eq_true.mp ht s ?_
  rcases List.mem_append.mp hs with hs | hs
  · simp [texts, hs]
  · simp [texts, hs]

theorem carries_addOpening (ht : t.isPlain) (h : Carries part contents) :
    Carries (t.addOpening part) contents := by
  unfold addOpening
  split
  · rename_i s hs
    have hplain := plain_of_mem_texts ht (s := s) (by simp [texts, hs])
    rw [List.append_cons]
    exact h.plain_append (List.forall_mem_append.mpr ⟨hplain, List.forall_mem_singleton.mpr rfl⟩)
  · exact h

theorem carries_addClosing (ht : t.isPlain) (h : Carries part contents) :
    Carries (t.addClosing part) contents := by
  unfold addClosing
  split
  · rename_i s hs
    have hplain := plain_of_mem_texts ht (s := s) (by simp [texts, hs])
    exact h.append_plain (List.forall_mem_cons.mpr ⟨by decide, hplain⟩)
  · exact h

/-- Trimming leaves the placeholders of a part as they are. -/
theorem carries_apply (ht : t.isPlain) {part : String} (h : Carries part.toList contents) :
    Carries (t.apply part).toList contents :=
  apply_of_cuttable (Carries.cuttable contents) (cutsPlain_of_isPlain ht)
    (fun _ => carries_addOpening ht) (fun _ => carries_addClosing ht) h

end Carries

end Trim

end SqlMapper
