import SqlMapper.Proofs.Sql.Clauses
import SqlMapper.Proofs.Sql.Overrides

/-!
Keywords without a body. Whether anything is left of a part is not looked at again once its
overrides are cut off, so a part that consists of overrides renders the opening and the closing text
alone.
-/

namespace SqlMapper

open Text

namespace Text

/-- Trimming leaves nothing exactly of blanks. -/
theorem trimChars_eq_nil_iff (cs : List Char) : trimChars cs = [] ↔ cs.all isBlank := by
  constructor
  · intro hnil
    obtain ⟨trail, htrail, hdrop⟩ := exists_dropBlanks_eq cs
    rw [hnil, List.nil_append] at hdrop
    cases trail with
    | nil => exact (dropBlanks_eq_nil_iff cs).mp hdrop
    | cons c trail =>
      have hvisible := isBlank_of_dropBlanks_eq_cons hdrop
      rw [htrail c List.mem_cons_self] at hvisible
      exact nomatch hvisible
  · intro hblank
    rw [trimChars, (dropBlanks_eq_nil_iff cs).mpr hblank]
    rfl

theorem trimChars_ne_nil {s : String} (h : isBlankText s = false) : trimChars s.toList ≠ [] := by
  rw [ne_eq, trimChars_eq_nil_iff, ← isBlankText, h]
  exact Bool.false_ne_true

end Text

namespace Trim

def UsesUp (t : Trim) (part : List Char) : Prop :=
  ∃ gap, (∀ c ∈ gap, isBlank c) ∧ part = t.startCut part ++ gap ++ t.endCut part

variable {t : Trim} {part : List Char}

theorem exists_kept_iff (hpart : IsTrimmed part) :
    (∃ c ∈ t.kept part, isBlank c = false) ↔ ¬ t.UsesUp part := by
  obtain ⟨gap, gap', hgaps, hparts⟩ := t.exists_parts part hpart
  constructor
  · rintro ⟨c, hmem, hc⟩ ⟨between, hbetween, hused⟩
    have hsame : t.startCut part ++ between ++ t.endCut part =
        t.startCut part ++ (gap ++ t.kept part ++ gap') ++ t.endCut part := by
      rw [← hused]
      simpa using hparts
    have hmiddle := List.append_cancel_left (List.append_cancel_right hsame)
    have hblank := hbetween c (by simp [hmiddle, hmem])
    rw [hblank] at hc
    exact nomatch hc
  · intro hmore
    rcases Nat.lt_or_ge (t.reach (t.opened part)) (t.cutStart part).length with hlt | hge
    · obtain ⟨-, -, -, -, hvisible⟩ := t.exists_kept_append part hpart hlt
      exact hvisible
    · refine absurd ⟨gap ++ gap', hgaps, ?_⟩ hmore
      rw [t.kept_eq_nil part hge] at hparts
      simpa using hparts

theorem apply_of_isBlankText {text : String} (h : isBlankText text) : t.apply text = "" := by
  rw [apply, applyChars, (trimChars_eq_nil_iff _).mpr h]

end Trim

namespace Fragment

/-- What a trimmed fragment writes, if its body renders. A blank body leaves nothing to write.
Otherwise what is left of the body stands between the opening and the closing text, and the opening
text is whole if anything is left. So what is written is nothing at all or holds a character of the
body that is not blank, unless the overrides use the body up and leave some of these two texts. -/
theorem render_trim_holds_body (rule : Trim) (body : Fragment) (ctx : Context) :
    match (Render.isolated (render body)).run ctx with
    | (.error e, after) => (render (.trim rule body)).run ctx = (.error e, after)
    | (.ok (tookPart, part), after) =>
      (render (.trim rule body)).run ctx = (.ok tookPart, after.append (rule.apply part)) ∧
      (isBlankText part → rule.apply part = "") ∧
      (isBlankText part = false → ∃ front, front <+: rule.lead ∧
        (rule.kept (trimChars part.toList) ≠ [] → front = rule.lead) ∧
        (rule.apply part).toList = front ++ rule.kept (trimChars part.toList) ++ rule.tail) ∧
      ((isBlankText (rule.apply part) ∨
          ∃ c ∈ rule.kept (trimChars part.toList), isBlank c = false) ↔
        (rule.UsesUp (trimChars part.toList) → isBlankText (rule.apply part))) := by
  have hrun : (render (.trim rule body)).run ctx =
      match (Render.isolated (render body)).run ctx with
      | (.error e, after) => (.error e, after)
      | (.ok (tookPart, part), after) => (.ok tookPart, after.append (rule.apply part)) := by
    rw [render, Render.run_bind]
    rcases (Render.isolated (render body)).run ctx with ⟨e | ⟨tookPart, part⟩, after⟩
    · rfl
    · rfl
  rcases hbody : (Render.isolated (render body)).run ctx with ⟨e | ⟨tookPart, part⟩, after⟩
  · rwa [hbody] at hrun
  · rw [hbody] at hrun
    refine ⟨hrun, Trim.apply_of_isBlankText, ?_, ?_⟩
    · exact fun hpart => rule.exists_apply_eq part (trimChars_ne_nil hpart)
    · cases hblank : isBlankText part with
      | true =>
        rw [Trim.apply_of_isBlankText hblank]
        exact iff_of_true (.inl rfl) fun _ => rfl
      | false =>
        rw [Trim.exists_kept_iff (.of_trimChars (trimChars_ne_nil hblank)), or_comm,
          imp_iff_not_or]

/-- A list of assignments that is only a comma leaves the keyword alone. -/
theorem render_setClause_comma :
    (render (.trim .setClause (.text ","))).run (.start .null none) =
        (.ok true, { Context.start .null none with written := ["SET"] }) ∧
      Trim.setClause.kept ",".toList = [] ∧ isBlankText "SET" = false := by
  rw [Trim.setClause_eq]
  exact ⟨rfl, by decide, by decide⟩

end Fragment
end SqlMapper
