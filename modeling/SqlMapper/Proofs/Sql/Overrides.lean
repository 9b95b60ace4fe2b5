import SqlMapper.Proofs.Sql.Trimming
import SqlMapper.Sql.Trim

/-!
Where overrides cut a trimmed part: one at each end, with the blanks next to it. The override at the
end is looked for without its blanks as well, and then its letters may be those of a longer word.
-/

namespace SqlMapper

open Text

namespace Text

variable {cs ds : List Char}

def beginsBlank (cs : List Char) : Bool := cs.head?.any isBlank

def endsBlank (cs : List Char) : Bool := cs.getLast?.any isBlank

theorem beginsBlank_upper (cs : List Char) : beginsBlank (upper cs) = beginsBlank cs := by
  cases cs with
  | nil => rfl
  | cons c cs => exact isBlank_toUpper c

theorem endsBlank_upper (cs : List Char) : endsBlank (upper cs) = endsBlank cs := by
  rw [endsBlank, upper, List.getLast?_map]
  cases h : cs.getLast? with
  | none => rw [endsBlank, h]; rfl
  | some c =>
    rw [endsBlank, h]
    exact isBlank_toUpper c

theorem endsBlank_concat (cs : List Char) (c : Char) : endsBlank (cs ++ [c]) = isBlank c := by
  rw [endsBlank, List.getLast?_concat]
  rfl

theorem endsBlank_append (cs : List Char) (h : ds ≠ []) : endsBlank (cs ++ ds) = endsBlank ds := by
  rw [endsBlank, List.getLast?_append, List.getLast?_eq_some_getLast h, endsBlank,
    List.getLast?_eq_some_getLast h]
  rfl

theorem endsBlank_of_forall (h : ∀ c ∈ cs, isBlank c) (hne : cs ≠ []) : endsBlank cs := by
  rw [endsBlank, List.getLast?_eq_some_getLast hne]
  exact h _ (List.getLast_mem hne)

theorem IsTrimmed.beginsBlank_eq (h : IsTrimmed cs) : beginsBlank cs = false := by
  obtain ⟨c, rest, rfl, hc⟩ := h.start
  exact hc

theorem IsTrimmed.endsBlank_eq (h : IsTrimmed cs) : endsBlank cs = false := by
  obtain ⟨rest, c, rfl, hc⟩ := h.ending
  rw [endsBlank_concat, hc]

end Text

namespace Trim

section Ends

variable (t : Trim) (part text : List Char)

def lead : List Char := t.addOpening []

def tail : List Char := t.addClosing []

theorem addOpening_eq : t.addOpening part = t.lead ++ part := by
  unfold lead addOpening
  split
  · rw [List.append_assoc, List.singleton_append]
  · rfl

theorem addClosing_eq : t.addClosing part = part ++ t.tail := by
  unfold tail addClosing
  split
  · rfl
  · rw [List.append_nil]

def startOverride? : Option String :=
  t.openingOverrides.find? fun o => o.toList.isPrefixOf (upper part)

def startCut : List Char :=
  match t.startOverride? part with
  | some o => part.take o.length
  | none => []

def opened : List Char := t.addOpening (t.cutStart part)

def endOverride? : Option String :=
  t.closingOverrides.find? fun o => (covered? text o.toList).isSome

def reach : Nat :=
  ((t.endOverride? text).bind fun o => covered? text o.toList).getD 0

/-- What this override takes away from a part. What it covers beyond the part belongs to the opening
text. -/
def endCut : List Char :=
  (t.cutStart part).drop ((t.cutStart part).length - t.reach (t.opened part))

/-- What is left of a part without blanks at its ends, behind what is left of the opening text. -/
def kept : List Char := (t.cutEnd (t.opened part)).drop t.lead.length

/-- A part is what the override at its start takes away, blanks, and what is left. -/
theorem exists_startCut_append : ∃ gap, (∀ c ∈ gap, isBlank c) ∧
    part = t.startCut part ++ (gap ++ t.cutStart part) := by
  unfold startCut cutStart
  rw [← startOverride?]
  cases t.startOverride? part with
  | none => exact ⟨[], List.forall_mem_nil _, rfl⟩
  | some o =>
    refine ⟨(part.drop o.length).takeWhile isBlank, fun c hc => List.mem_takeWhile_imp hc, ?_⟩
    dsimp only
    rw [dropBlanks, List.takeWhile_append_dropWhile, List.take_append_drop]

/-- An override takes its own letters away, in whatever case. -/
theorem upper_startCut (h : t.startCut part ≠ []) :
    ∃ o ∈ t.openingOverrides, upper (t.startCut part) = o.toList := by
  unfold startCut at h ⊢
  cases hfind : t.startOverride? part with
  | none =>
    rw [hfind] at h
    exact absurd rfl h
  | some o =>
    have hstarts := List.find?_some hfind
    rw [List.isPrefixOf_iff_prefix] at hstarts
    refine ⟨o, List.mem_of_find?_eq_some hfind, ?_⟩
    rw [List.prefix_iff_eq_take.mp hstarts, String.length_toList, upper, List.map_take,
      upper]

theorem findSome?_covered : t.closingOverrides.findSome? (fun o => covered? text o.toList) =
    (t.endOverride? text).bind fun o => covered? text o.toList := by
  unfold endOverride?
  induction t.closingOverrides with
  | nil => rfl
  | cons o os ih =>
    rw [List.findSome?_cons, List.find?_cons, ih]
    cases h : covered? text o.toList with
    | none => rfl
    | some n => exact h.symm

/-- Behind what is left before the override at the end stand only blanks. -/
theorem exists_cutEnd_append : ∃ gap, (∀ c ∈ gap, isBlank c) ∧
    text.take (text.length - t.reach text) = t.cutEnd text ++ gap := by
  unfold cutEnd reach
  rw [findSome?_covered]
  cases (t.endOverride? text).bind fun o => covered? text o.toList with
  | none => exact ⟨[], List.forall_mem_nil _, by simp⟩
  | some n => exact exists_dropBlanksEnd_append (text.take (text.length - n))

/-- A part that is left begins with a character that is not blank. -/
theorem isBlank_of_cutStart_eq_cons (hpart : IsTrimmed part) {c : Char} {rest : List Char}
    (h : t.cutStart part = c :: rest) : isBlank c = false := by
  unfold cutStart at h
  split at h
  · exact isBlank_of_dropBlanks_eq_cons h
  · obtain ⟨d, ds, hpart, hd⟩ := hpart.start
    rw [h] at hpart
    rwa [(List.cons.inj hpart).1]

/-- An override that covers the whole of the part leaves some of the opening text. -/
theorem cutEnd_prefix_lead (h : (t.cutStart part).length ≤ t.reach (t.opened part)) :
    t.cutEnd (t.opened part) <+: t.lead := by
  obtain ⟨gap, -, htake⟩ := t.exists_cutEnd_append (t.opened part)
  have hopened : t.opened part = t.lead ++ t.cutStart part := t.addOpening_eq _
  have hlength : (t.opened part).length - t.reach (t.opened part) ≤ t.lead.length := by
    have hadd := congrArg List.length hopened
    rw [List.length_append] at hadd
    omega
  have hlead : (t.opened part).take ((t.opened part).length - t.reach (t.opened part)) <+:
      t.lead := by
    generalize (t.opened part).length - t.reach (t.opened part) = k at hlength
    rw [hopened, List.take_append_of_le_length hlength]
    exact List.take_prefix _ _
  rw [htake] at hlead
  exact (List.prefix_append _ gap).trans hlead

theorem kept_eq_nil (h : (t.cutStart part).length ≤ t.reach (t.opened part)) :
    t.kept part = [] :=
  List.drop_eq_nil_of_le (t.cutEnd_prefix_lead part h).length_le

/-- An override that covers more than the part takes all of the part. -/
theorem endCut_eq_cutStart (h : (t.cutStart part).length ≤ t.reach (t.opened part)) :
    t.endCut part = t.cutStart part := by
  rw [endCut, Nat.sub_eq_zero_of_le h, List.drop_zero]

/-- What the override at the end leaves of a part begins with a character that is not blank. -/
theorem exists_kept_append (hpart : IsTrimmed part)
    (h : t.reach (t.opened part) < (t.cutStart part).length) :
    ∃ gap, (∀ c ∈ gap, isBlank c) ∧ t.cutEnd (t.opened part) = t.lead ++ t.kept part ∧
      t.cutStart part = t.kept part ++ (gap ++ t.endCut part) ∧
      ∃ c ∈ t.kept part, isBlank c = false := by
  obtain ⟨gap, hgap, htake⟩ := t.exists_cutEnd_append (t.opened part)
  generalize hreach : t.reach (t.opened part) = n at h htake
  have hopened : t.opened part = t.lead ++ t.cutStart part := t.addOpening_eq _
  have hlength : (t.opened part).length - n = t.lead.length + ((t.cutStart part).length - n) := by
    rw [hopened, List.length_append]
    omega
  have hrest : t.cutStart part =
      (t.cutStart part).take ((t.cutStart part).length - n) ++ t.endCut part := by
    rw [endCut, hreach, List.take_append_drop]
  rw [hlength, hopened, List.take_length_add_append, ← hopened] at htake
  generalize hleft : (t.cutStart part).take ((t.cutStart part).length - n) = left at hrest htake
  obtain ⟨c, others, rfl⟩ : ∃ c others, left = c :: others := by
    apply List.exists_cons_of_ne_nil
    rw [← hleft]
    exact List.ne_nil_of_length_pos (by rw [List.length_take]; omega)
  have hc : isBlank c = false := t.isBlank_of_cutStart_eq_cons part hpart hrest
  -- Only blanks are dropped before the override, so the first character stays.
  have hstays : c ∉ gap := fun hmem => by simp [hgap c hmem] at hc
  rcases List.append_eq_append_iff.mp htake with ⟨as, hcut, has⟩ | ⟨bs, -, hgap'⟩
  · have hkept : t.kept part = as := by rw [kept, hcut, List.drop_left]
    cases as with
    | nil =>
      rw [List.nil_append] at has
      exact absurd (has ▸ List.mem_cons_self) hstays
    | cons d as =>
      obtain ⟨rfl, hothers⟩ := List.cons.inj has
      refine ⟨gap, hgap, by rw [hcut, hkept], ?_, c, ?_, hc⟩
      · rw [hrest, hkept, hothers]
        simp
      · rw [hkept]
        exact List.mem_cons_self
  · exact absurd (hgap' ▸ List.mem_append_right bs List.mem_cons_self) hstays

/-- A part taken apart at the overrides that are cut off its ends. -/
theorem exists_parts (hpart : IsTrimmed part) : ∃ gap gap', (∀ c ∈ gap ++ gap', isBlank c) ∧
    part = t.startCut part ++ gap ++ t.kept part ++ gap' ++ t.endCut part := by
  obtain ⟨gap, hgap, hstart⟩ := t.exists_startCut_append part
  by_cases h : t.reach (t.opened part) < (t.cutStart part).length
  · obtain ⟨gap', hgap', -, hrest, -⟩ := t.exists_kept_append part hpart h
    refine ⟨gap, gap', List.forall_mem_append.mpr ⟨hgap, hgap'⟩, ?_⟩
    rw [hrest] at hstart
    simpa using hstart
  · refine ⟨gap, [], by simpa using hgap, ?_⟩
    rw [t.kept_eq_nil part (Nat.le_of_not_lt h), t.endCut_eq_cutStart part (Nat.le_of_not_lt h)]
    simpa using hstart

end Ends

section Words

variable {t : Trim} {part before : List Char}

/-- An override at the end of a part is found only without its blanks, and directly behind a
character that is not blank. -/
def SplitsWord (t : Trim) (part : List Char) : Prop :=
  ∃ o front c word, t.endOverride? (t.opened part) = some o ∧
    ¬ o.toList <:+ upper (t.opened part) ∧
    t.cutStart part = front ++ c :: word ∧ upper word = trimChars o.toList ∧ isBlank c = false

theorem covered?_eq_some {text o : List Char} {n : Nat} (h : covered? text o = some n) :
    (o <:+ upper text ∧ n = o.length) ∨
      (¬ o <:+ upper text ∧ trimChars o ≠ [] ∧ trimChars o <:+ upper text ∧
        n = (trimChars o).length) := by
  unfold covered? at h
  simp only [List.isSuffixOf_iff_suffix] at h
  split at h
  · rename_i hwhole
    exact .inl ⟨hwhole, (Option.some.inj h).symm⟩
  · rename_i hwhole
    split at h
    · rename_i hletters
      exact .inr ⟨hwhole, hletters.1, hletters.2, (Option.some.inj h).symm⟩
    · exact nomatch h

/-- What an override covers has its letters, in whatever case. -/
theorem upper_drop_of_suffix {text o : List Char} (h : o <:+ upper text) :
    upper (text.drop (text.length - o.length)) = o := by
  rw [List.suffix_iff_eq_drop, length_upper] at h
  rw [upper, List.map_drop, ← upper, ← h]

theorem covered?_endOverride? {text : List Char} {o : String} (h : t.endOverride? text = some o) :
    covered? text o.toList = some (t.reach text) := by
  have hcovers := List.find?_some h
  obtain ⟨n, hn⟩ := Option.isSome_iff_exists.mp hcovers
  rw [reach, h, Option.bind_some, hn, Option.getD_some]

/-- An override that covers no more than the part takes the end of the opened part away. -/
theorem endCut_eq_drop (h : t.reach (t.opened part) ≤ (t.cutStart part).length) :
    t.endCut part = (t.opened part).drop ((t.opened part).length - t.reach (t.opened part)) := by
  have hopened : t.opened part = t.lead ++ t.cutStart part := t.addOpening_eq _
  have hlength : (t.opened part).length - t.reach (t.opened part) =
      t.lead.length + ((t.cutStart part).length - t.reach (t.opened part)) := by
    have hadd := congrArg List.length hopened
    rw [List.length_append] at hadd
    omega
  have hdrop : (t.lead ++ t.cutStart part).drop
      (t.lead.length + ((t.cutStart part).length - t.reach (t.opened part))) =
      (t.cutStart part).drop ((t.cutStart part).length - t.reach (t.opened part)) :=
    List.drop_length_add_append _
  rw [endCut, hlength, ← hdrop, ← hopened]

variable (hopening : ∀ o ∈ t.openingOverrides, endsBlank o.toList)

include hopening

/-- What an override at the start takes away ends like the override. -/
theorem endsBlank_startCut : t.startCut part = [] ∨ endsBlank (t.startCut part) := by
  refine or_iff_not_imp_left.mpr fun hne => ?_
  obtain ⟨o, ho, hupper⟩ := t.upper_startCut part hne
  rw [← endsBlank_upper, hupper]
  exact hopening o ho

/-- What is left of a part begins where the part does, or behind a blank. -/
theorem endsBlank_before_cutStart (h : part = before ++ t.cutStart part) :
    before = [] ∨ endsBlank before := by
  obtain ⟨gap, hgap, hstart⟩ := t.exists_startCut_append part
  have hbefore : before = t.startCut part ++ gap := by
    rw [← List.append_assoc] at hstart
    exact List.append_cancel_right (h.symm.trans hstart)
  by_cases hnil : gap = []
  · rw [hbefore, hnil, List.append_nil]
    exact endsBlank_startCut hopening
  · right
    rw [hbefore, endsBlank_append _ hnil]
    exact endsBlank_of_forall hgap hnil

theorem cutStart_ne_nil (hpart : IsTrimmed part) : t.cutStart part ≠ [] := by
  intro hnil
  have hwhole : part = part ++ t.cutStart part := by rw [hnil, List.append_nil]
  rcases endsBlank_before_cutStart hopening hwhole with hempty | hblank
  · obtain ⟨c, rest, hcons, -⟩ := hpart.start
    rw [hempty] at hcons
    exact nomatch hcons
  · rw [hpart.endsBlank_eq] at hblank
    exact nomatch hblank

/-- The opened part ends like the part. -/
theorem endsBlank_opened (hpart : IsTrimmed part) : endsBlank (t.opened part) = false := by
  have hne := cutStart_ne_nil hopening hpart
  obtain ⟨gap, -, hstart⟩ := t.exists_startCut_append part
  rw [← List.append_assoc] at hstart
  have hend := hpart.endsBlank_eq
  rw [hstart, endsBlank_append _ hne] at hend
  rw [opened, addOpening_eq, endsBlank_append _ hne, hend]

/-- An override that is found as it is ends like the part, so its blank is at its start. -/
theorem beginsBlank_endCut {o : String} (ho : beginsBlank o.toList ∨ endsBlank o.toList)
    (hpart : IsTrimmed part) (hwhole : o.toList <:+ upper (t.opened part))
    (hupper : upper (t.endCut part) = o.toList) : beginsBlank (t.endCut part) := by
  rw [← beginsBlank_upper, hupper]
  refine ho.resolve_right fun hend => ?_
  have hne : o.toList ≠ [] := by
    intro hnil
    rw [hnil] at hend
    exact nomatch hend
  obtain ⟨front, hfront⟩ := hwhole
  have hopened := endsBlank_opened hopening hpart
  rw [← endsBlank_upper, ← hfront, endsBlank_append _ hne, hend] at hopened
  exact nomatch hopened

omit hopening in
/-- An override that is found without its blanks splits a word exactly if the character before it is
not blank. -/
theorem splitsWord_iff_of_letters {o : String} {front : List Char} {c : Char}
    (hfind : t.endOverride? (t.opened part) = some o)
    (hnot : ¬ o.toList <:+ upper (t.opened part))
    (hrest : t.cutStart part = front ++ c :: t.endCut part)
    (hupper : upper (t.endCut part) = trimChars o.toList) :
    t.SplitsWord part ↔ isBlank c = false := by
  constructor
  · rintro ⟨o', front', c', word, ho', -, hrest', hword, hc'⟩
    obtain rfl : o = o' := Option.some.inj (hfind.symm.trans ho')
    -- Both are as long as the override without its blanks.
    have hlength : word.length = (t.endCut part).length := by
      rw [← length_upper word, hword, ← hupper, length_upper]
    have hsplit : (front' ++ [c']) ++ word = (front ++ [c]) ++ t.endCut part := by
      rw [List.append_assoc, List.append_assoc, List.singleton_append, List.singleton_append,
        ← hrest', hrest]
    obtain ⟨hinit, -⟩ := List.append_inj' hsplit hlength
    obtain ⟨-, hlast⟩ := List.append_inj' hinit rfl
    rw [← List.singleton_inj.mp hlast, hc']
  · intro hc
    exact ⟨o, front, c, t.endCut part, hfind, hnot, hrest, hupper, hc⟩

omit hopening in
/-- An override that covers less than the part stands behind a character of it. -/
theorem exists_cutStart_eq_concat (h : t.reach (t.opened part) < (t.cutStart part).length) :
    ∃ front c, t.cutStart part = front ++ c :: t.endCut part := by
  have hne : (t.cutStart part).take ((t.cutStart part).length - t.reach (t.opened part)) ≠ [] :=
    List.ne_nil_of_length_pos (by rw [List.length_take]; omega)
  have hsplit : t.cutStart part =
      (t.cutStart part).take ((t.cutStart part).length - t.reach (t.opened part)) ++
        t.endCut part := (List.take_append_drop _ _).symm
  exact ⟨_, _, by rwa [List.append_cons, List.dropLast_concat_getLast hne]⟩

omit hopening in
theorem not_splitsWord_of_whole {o : String} (hfind : t.endOverride? (t.opened part) = some o)
    (hwhole : o.toList <:+ upper (t.opened part)) : ¬ t.SplitsWord part := by
  rintro ⟨o', -, -, -, ho', hnot, -⟩
  obtain rfl : o = o' := Option.some.inj (hfind.symm.trans ho')
  exact hnot hwhole

omit hopening in
/-- An override that covers the whole of the part has no character before it. -/
theorem not_splitsWord_of_all {o : String} (hfind : t.endOverride? (t.opened part) = some o)
    (hall : (t.cutStart part).length ≤ t.reach (t.opened part)) : ¬ t.SplitsWord part := by
  rintro ⟨o', front, c, word, ho', hnot, hrest, hword, -⟩
  obtain rfl : o = o' := Option.some.inj (hfind.symm.trans ho')
  rcases covered?_eq_some (covered?_endOverride? hfind) with ⟨hwhole, -⟩ | ⟨-, -, -, hn⟩
  · exact hnot hwhole
  · have hlength := congrArg List.length hword
    rw [length_upper] at hlength
    rw [hrest, List.length_append, List.length_cons] at hall
    omega

omit hopening in
/-- The character before the override is the last one of all that stands before it. -/
theorem endsBlank_before_endCut {front : List Char} {c : Char}
    (hrest : t.cutStart part = front ++ c :: t.endCut part)
    (hbefore : part = before ++ t.endCut part) : before ≠ [] ∧ endsBlank before = isBlank c := by
  obtain ⟨gap, -, hstart⟩ := t.exists_startCut_append part
  have hsplit : before ++ t.endCut part =
      (t.startCut part ++ (gap ++ front) ++ [c]) ++ t.endCut part :=
    calc before ++ t.endCut part
      _ = t.startCut part ++ (gap ++ t.cutStart part) := hbefore.symm.trans hstart
      _ = (t.startCut part ++ (gap ++ front) ++ [c]) ++ t.endCut part := by
        rw [hrest]
        simp
  rw [List.append_cancel_right hsplit]
  exact ⟨by simp, endsBlank_concat _ c⟩

/-- What stands before the override at the end of a part ends with a blank, or the override begins
with one, unless it splits a word. -/
theorem parted_iff_not_splitsWord
    (hclosing : ∀ o ∈ t.closingOverrides, beginsBlank o.toList ∨ endsBlank o.toList)
    (hpart : IsTrimmed part) (hbefore : part = before ++ t.endCut part) :
    (t.endCut part = [] ∨ before = [] ∨ endsBlank before ∨ beginsBlank (t.endCut part)) ↔
      ¬ t.SplitsWord part := by
  cases hfind : t.endOverride? (t.opened part) with
  | none =>
    have hnil : t.endCut part = [] := by
      rw [endCut, reach, hfind]
      exact List.drop_length
    refine iff_of_true (.inl hnil) ?_
    rintro ⟨o, -, -, -, ho, -⟩
    rw [hfind] at ho
    exact nomatch ho
  | some o =>
    rcases Nat.lt_or_ge (t.reach (t.opened part)) (t.cutStart part).length with hlt | hge
    · have hcut := endCut_eq_drop hlt.le
      rcases covered?_eq_some (covered?_endOverride? hfind) with
        ⟨hwhole, hn⟩ | ⟨hnot, hne, hletters, hn⟩
      · have hupper : upper (t.endCut part) = o.toList := by
          rw [hcut, hn]
          exact upper_drop_of_suffix hwhole
        have ho := hclosing o (List.mem_of_find?_eq_some hfind)
        have hblank := beginsBlank_endCut hopening ho hpart hwhole hupper
        exact iff_of_true (.inr (.inr (.inr hblank))) (not_splitsWord_of_whole hfind hwhole)
      · have hupper : upper (t.endCut part) = trimChars o.toList := by
          rw [hcut, hn]
          exact upper_drop_of_suffix hletters
        have hletter : t.endCut part ≠ [] ∧ beginsBlank (t.endCut part) = false := by
          constructor
          · intro hnil
            rw [hnil] at hupper
            exact hne hupper.symm
          · rw [← beginsBlank_upper, hupper]
            exact (IsTrimmed.of_trimChars hne).beginsBlank_eq
        obtain ⟨front, c, hrest⟩ := exists_cutStart_eq_concat hlt
        rw [splitsWord_iff_of_letters hfind hnot hrest hupper]
        simp [endsBlank_before_endCut hrest hbefore, hletter]
    · -- All that the start has left is taken, which begins at the start or behind a blank.
      have hend := t.endCut_eq_cutStart part hge
      rw [hend] at hbefore ⊢
      have hstart := endsBlank_before_cutStart hopening hbefore
      exact iff_of_true (.inr (hstart.imp_right .inl)) (not_splitsWord_of_all hfind hge)

end Words

/-- What is rendered of a part: the opening text, what is left of the part, and the closing text.
The opening text may lose its end where nothing is left of the part. -/
theorem exists_apply_eq (t : Trim) (part : String) (h : trimChars part.toList ≠ []) :
    ∃ front, front <+: t.lead ∧ (t.kept (trimChars part.toList) ≠ [] → front = t.lead) ∧
      (t.apply part).toList = front ++ t.kept (trimChars part.toList) ++ t.tail := by
  have hpart := IsTrimmed.of_trimChars h
  have happly : (t.apply part).toList = t.cutEnd (t.opened (trimChars part.toList)) ++ t.tail := by
    rw [apply, String.toList_ofList, applyChars, ← addClosing_eq, opened]
    obtain ⟨c, rest, hcons, -⟩ := hpart.start
    rw [hcons]
  generalize trimChars part.toList = body at *
  rcases Nat.lt_or_ge (t.reach (t.opened body)) (t.cutStart body).length with hlt | hge
  · obtain ⟨-, -, hcut, -⟩ := t.exists_kept_append body hpart hlt
    exact ⟨t.lead, List.prefix_rfl, fun _ => rfl, by rw [happly, hcut]⟩
  · have hkept := t.kept_eq_nil body hge
    exact ⟨t.cutEnd (t.opened body), t.cutEnd_prefix_lead body hge, fun hne => absurd hkept hne,
      by rw [happly, hkept, List.append_nil]⟩

/-- Overrides with blanks at their ends take no letters of a word, if they are found as they are.
What is cut off the start of a part ends with a blank. What is cut off its end begins with a blank,
stands behind one, or is the whole part, unless an override is found there without its blanks,
directly behind a character that is not blank. -/
theorem overrides_part_words (t : Trim) (hopening : ∀ o ∈ t.openingOverrides, endsBlank o.toList)
    (hclosing : ∀ o ∈ t.closingOverrides, beginsBlank o.toList ∨ endsBlank o.toList)
    (part : String) :
    let body := trimChars part.toList
    ∃ gap gap', (∀ c ∈ gap ++ gap', isBlank c) ∧
      let before := t.startCut body ++ gap ++ t.kept body ++ gap'
      body = before ++ t.endCut body ∧
      (body ≠ [] → ∃ front, front <+: t.lead ∧ (t.kept body ≠ [] → front = t.lead) ∧
        (t.apply part).toList = front ++ t.kept body ++ t.tail) ∧
      (t.startCut body = [] ∨ endsBlank (t.startCut body)) ∧
      ((t.endCut body = [] ∨ before = [] ∨ endsBlank before ∨ beginsBlank (t.endCut body)) ↔
        ¬ t.SplitsWord body) := by
  intro body
  by_cases hbody : body = []
  · obtain ⟨gap, -, hnil⟩ := t.exists_startCut_append []
    simp only [List.nil_eq, List.append_eq_nil_iff] at hnil
    obtain ⟨hstart, -, hrest⟩ := hnil
    have hend : t.endCut [] = [] := by rw [endCut, hrest, List.drop_nil]
    have hkept : t.kept [] = [] := t.kept_eq_nil [] (by simp [hrest])
    rw [hbody]
    refine ⟨[], [], List.forall_mem_nil _, ?_, fun hne => absurd rfl hne, .inl hstart, ?_⟩
    · rw [hstart, hkept, hend]
      rfl
    · refine iff_of_true (.inl hend) ?_
      rintro ⟨-, front, c, word, -, -, hword, -⟩
      rw [hrest] at hword
      exact absurd hword (by simp)
  · have hpart : IsTrimmed body := IsTrimmed.of_trimChars hbody
    obtain ⟨gap, gap', hgaps, hparts⟩ := t.exists_parts body hpart
    refine ⟨gap, gap', hgaps, hparts, ?_, endsBlank_startCut hopening,
      parted_iff_not_splitsWord hopening hclosing hpart hparts⟩
    exact fun _ => t.exists_apply_eq part hbody

def bareWhere : Trim := .ofWritten (some "WHERE") (some "AND |OR ") none (some "AND |OR ")

theorem bareWhere_eq : bareWhere = ⟨some "WHERE", ["AND ", "OR "], none, ["AND ", "OR "]⟩ := by
  have hwritten : (overridesOf (some "AND |OR ")).map (fun o => String.ofList (upper o.toList)) =
      ["AND ", "OR "] := by decide
  have harranged : arrange (overridesOf (some "AND |OR ")) = ["AND ", "OR "] := by
    rw [arrange, hwritten]
    exact List.mergeSort_of_pairwise (by decide)
  rw [bareWhere, ofWritten, harranged]

theorem blanks_bareWhere : (∀ o ∈ bareWhere.openingOverrides, endsBlank o.toList) ∧
    ∀ o ∈ bareWhere.closingOverrides, beginsBlank o.toList ∨ endsBlank o.toList := by
  rw [bareWhere_eq]
  decide

theorem overrides_part_words_orderId :
    (∀ o ∈ bareWhere.openingOverrides, endsBlank o.toList) ∧
      (∀ o ∈ bareWhere.closingOverrides, beginsBlank o.toList ∨ endsBlank o.toList) ∧
      bareWhere.apply " and ORDER_ID = BRAND or " = "WHERE ORDER_ID = BRAND" ∧
      ¬ bareWhere.SplitsWord "and ORDER_ID = BRAND or".toList := by
  obtain ⟨hopening, hclosing⟩ := blanks_bareWhere
  obtain ⟨gap, gap', -, hbody, -, -, hparted⟩ :=
    overrides_part_words bareWhere hopening hclosing " and ORDER_ID = BRAND or "
  have htrim : trimChars " and ORDER_ID = BRAND or ".toList = "and ORDER_ID = BRAND or".toList := by
    decide
  have hend : bareWhere.endCut "and ORDER_ID = BRAND or".toList = "or".toList := by
    rw [bareWhere_eq]
    decide
  have happly : bareWhere.apply " and ORDER_ID = BRAND or " = "WHERE ORDER_ID = BRAND" := by
    rw [bareWhere_eq]
    decide
  rw [htrim] at hbody hparted
  refine ⟨hopening, hclosing, happly, hparted.mp (.inr (.inr (.inl ?_)))⟩
  have hbefore : "and ORDER_ID = BRAND ".toList ++ "or".toList = _ ++ "or".toList :=
    hend ▸ hbody
  rw [← List.append_cancel_right hbefore]
  decide

/-- The last letters of a word are cut off. -/
theorem splits_brand :
    (∀ o ∈ bareWhere.openingOverrides, endsBlank o.toList) ∧
      (∀ o ∈ bareWhere.closingOverrides, beginsBlank o.toList ∨ endsBlank o.toList) ∧
      bareWhere.apply "name = BRAND" = "WHERE name = BR" ∧
      bareWhere.endCut "name = BRAND".toList = "AND".toList ∧
      "name = BRAND".toList = "name = BR".toList ++ "AND".toList ∧
      ¬ (endsBlank "name = BR".toList ∨ beginsBlank "AND".toList ∨
        "AND".toList = "name = BRAND".toList) := by
  refine ⟨blanks_bareWhere.1, blanks_bareWhere.2, ?_⟩
  rw [bareWhere_eq]
  decide

end Trim
end SqlMapper
