import Mathlib.Data.List.TakeWhile
import SqlMapper.Text.Blank

/-!
Blanks at the ends of texts: what trimming takes off, and which texts it leaves as they are.
-/

namespace SqlMapper.Text

section Trimming

variable {cs ds xs blanks : List Char}

theorem exists_dropBlanksEnd_append (cs : List Char) :
    ∃ gap, (∀ c ∈ gap, isBlank c) ∧ cs = dropBlanksEnd cs ++ gap := by
  refine ⟨(cs.reverse.takeWhile isBlank).reverse,
    fun c hc => List.mem_takeWhile_imp (List.mem_reverse.mp hc), ?_⟩
  rw [dropBlanksEnd, ← List.reverse_append, dropBlanks, List.takeWhile_append_dropWhile,
    List.reverse_reverse]

/-- Behind the trimmed text stand blanks. -/
theorem exists_dropBlanks_eq (cs : List Char) :
    ∃ trail, (∀ c ∈ trail, isBlank c) ∧ dropBlanks cs = trimChars cs ++ trail :=
  exists_dropBlanksEnd_append (dropBlanks cs)

/-- Dropping the leading blanks leaves nothing or begins with a character that is not blank. -/
theorem isBlank_of_dropBlanks_eq_cons {c : Char} (h : dropBlanks cs = c :: ds) :
    isBlank c = false := by
  have hne : dropBlanks cs ≠ [] := by
    rw [h]
    exact List.cons_ne_nil c ds
  have hhead : isBlank ((dropBlanks cs).head hne) = false := List.head_dropWhile_not _ _
  simpa only [h, List.head_cons] using hhead

theorem mem_of_mem_trimChars {c : Char} (h : c ∈ trimChars cs) : c ∈ cs := by
  have hdropped : c ∈ dropBlanks cs :=
    List.mem_reverse.mp ((List.dropWhile_sublist _).mem (List.mem_reverse.mp h))
  exact (List.dropWhile_sublist _).mem hdropped

theorem isBlank_getLast_trimChars (h : trimChars cs ≠ []) :
    isBlank ((trimChars cs).getLast h) = false := by
  unfold trimChars dropBlanksEnd at h ⊢
  rw [List.getLast_reverse]
  exact List.head_dropWhile_not _ _

/-- Trimming takes blanks off the end of a text that does not begin or end with one. -/
theorem trimChars_append (hne : xs ≠ []) (hhead : isBlank (xs.head hne) = false)
    (hlast : isBlank (xs.getLast hne) = false) (hblanks : ∀ c ∈ blanks, isBlank c) :
    trimChars (xs ++ blanks) = xs := by
  have hstart : dropBlanks (xs ++ blanks) = xs ++ blanks := by
    obtain ⟨c, cs, rfl⟩ := List.exists_cons_of_ne_nil hne
    exact dropBlanks_eq_self_of_head hhead
  have hend : dropBlanks xs.reverse = xs.reverse := by
    obtain ⟨c, cs, hcs⟩ := List.exists_cons_of_ne_nil (List.reverse_ne_nil_iff.mpr hne)
    rw [hcs]
    refine dropBlanks_eq_self_of_head ?_
    rw [← hlast, ← List.head_reverse (List.reverse_ne_nil_iff.mpr hne)]
    simp [hcs]
  rw [trimChars, hstart, dropBlanksEnd, List.reverse_append, dropBlanks,
    List.dropWhile_append_of_pos fun c hc => hblanks c (List.mem_reverse.mp hc), ← dropBlanks, hend,
    List.reverse_reverse]

end Trimming

structure IsTrimmed (cs : List Char) : Prop where
  start : ∃ c rest, cs = c :: rest ∧ isBlank c = false
  ending : ∃ rest c, cs = rest ++ [c] ∧ isBlank c = false

namespace IsTrimmed

variable {as bs cs : List Char}

theorem of_trimChars (h : trimChars cs ≠ []) : IsTrimmed (trimChars cs) := by
  constructor
  · obtain ⟨trail, -, hdrop⟩ := exists_dropBlanks_eq cs
    obtain ⟨c, rest, hcs⟩ := List.exists_cons_of_ne_nil h
    rw [hcs] at hdrop
    exact ⟨c, rest, hcs, isBlank_of_dropBlanks_eq_cons hdrop⟩
  · exact ⟨_, _, (List.dropLast_concat_getLast h).symm, isBlank_getLast_trimChars h⟩

theorem of_trimChars_eq (h : trimChars cs = cs) (hne : cs ≠ []) : IsTrimmed cs := by
  rw [← h] at hne
  exact h ▸ of_trimChars hne

theorem of_trim_eq {s : String} (h : trim s = s) (hne : s ≠ "") : IsTrimmed s.toList := by
  refine of_trimChars_eq ?_ fun hnil => hne (String.toList_eq_nil_iff.mp hnil)
  rw [← toList_trim, h]

theorem dropBlanks_eq (h : IsTrimmed cs) : dropBlanks cs = cs := by
  obtain ⟨c, rest, rfl, hc⟩ := h.start
  exact dropBlanks_eq_self_of_head hc

theorem dropBlanksEnd_append (h : IsTrimmed cs) (as : List Char) :
    dropBlanksEnd (as ++ cs) = as ++ cs := by
  obtain ⟨rest, c, rfl, hc⟩ := h.ending
  have hlast : dropBlanks (as ++ (rest ++ [c])).reverse = (as ++ (rest ++ [c])).reverse := by
    rw [← List.append_assoc, List.reverse_append]
    exact dropBlanks_eq_self_of_head hc
  rw [dropBlanksEnd, hlast, List.reverse_reverse]

theorem trimChars_eq (h : IsTrimmed cs) : trimChars cs = cs := by
  rw [trimChars, h.dropBlanks_eq]
  exact h.dropBlanksEnd_append []

theorem trim_eq {s : String} (h : IsTrimmed s.toList) : trim s = s := by
  rw [trim, h.trimChars_eq, String.ofList_toList]

theorem isBlankText_eq {s : String} (h : IsTrimmed s.toList) : isBlankText s = false := by
  obtain ⟨c, rest, hs, hc⟩ := h.start
  rw [isBlankText, hs, List.all_cons, hc, Bool.false_and]

/-- Only the ends of a text count. -/
theorem surround (ha : IsTrimmed as) (cs : List Char) (hb : IsTrimmed bs) :
    IsTrimmed (as ++ cs ++ bs) := by
  obtain ⟨c, rest, rfl, hc⟩ := ha.start
  obtain ⟨rest', c', rfl, hc'⟩ := hb.ending
  refine ⟨⟨c, rest ++ cs ++ (rest' ++ [c']), by simp, hc⟩, ?_⟩
  exact ⟨c :: rest ++ cs ++ rest', c', by simp, hc'⟩

end IsTrimmed
end SqlMapper.Text
