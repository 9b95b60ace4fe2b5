import SqlMapper.Proofs.Json.Reading

/-!
Documents are read back from what is written of them over several lines. What follows a document in
the text does not matter, as long as it cannot go on in a number.
-/

namespace SqlMapper.Json

open Text

section Blanks

variable {c : Char} {cs rest : List Char} {indent : Nat}

theorem isSpace_of_mem_newline (hc : c ∈ newline indent) : isSpace c := by
  rcases List.mem_cons.mp hc with rfl | hc
  · rfl
  · obtain rfl := List.eq_of_mem_replicate hc
    rfl

theorem endsNumber_nil : EndsNumber [] := nofun

theorem endsNumber_cons (hdigit : isDigit c = false) (hc : c ∉ ['.', 'e', 'E']) :
    EndsNumber (c :: cs) := by
  intro d hd
  obtain rfl := Option.some.inj hd
  exact ⟨hdigit, hc⟩

theorem endsNumber_newline (indent : Nat) (cs : List Char) : EndsNumber (newline indent ++ cs) :=
  endsNumber_cons (by decide) (by decide)

end Blanks

def Reads (text : List Char) (j : Json) : Prop :=
  ∀ rest, EndsNumber rest → (value? (text ++ rest)).plain = some (j, rest)

section Leaves

variable {rest : List Char}

theorem front?_number {c : Char} {cs : List Char} (hc : c ∉ ['"', '[', '\x7b', 'n', 't', 'f']) :
    front? (c :: cs) = (number? (c :: cs)).map fun (ds, r) => (.number ds, r) := by
  rw [front?]
  all_goals
    rintro rfl
    exact hc (by decide)

theorem reads_null : Reads "null".toList .null := by
  intro rest _
  rw [plain_value?]
  rfl

theorem reads_bool (b : Bool) : Reads (if b then "true" else "false").toList (.bool b) := by
  intro rest _
  rw [plain_value?]
  cases b with
  | true => rfl
  | false => rfl

theorem reads_text (s : String) : Reads (escape s) (.text (some s)) := by
  intro rest _
  obtain ⟨parts, hparts, hs⟩ := exists_textParts? s.toList rest
  rw [plain_value?, escape, List.cons_append, List.cons_append, List.append_assoc,
    List.singleton_append, skipSpaces_cons (by decide), front?, hparts]
  dsimp only [Option.map_some]
  rw [hs, Option.map_some, String.ofList_toList]

theorem reads_ofNat (n : Nat) : Reads (Nat.toDigits 10 n) (ofNat n) := by
  intro rest hrest
  have hnumber := number?_decimal n hrest
  obtain ⟨d, ds, hds, hd⟩ := exists_decimal_eq n
  have hspace : isSpace d = false := by
    have hother : d ∉ [' ', '\n', '\t', '\r'] := notMem_of_all_not hd (by decide)
    simpa [isSpace, and_assoc] using hother
  have hsign : d ∉ ['"', '[', '\x7b', 'n', 't', 'f'] := notMem_of_all_not hd (by decide)
  rw [plain_value?, ofNat]
  rw [hds, List.cons_append] at hnumber ⊢
  rw [skipSpaces_cons hspace, front?_number hsign, hnumber]
  rfl

end Leaves

/-! Arrays and objects are rows of parts with commas between them, up to a closing sign. -/

section Rows

variable {α : Type} {one : List Char → Option (α × List Char)}
  {row : List Char → Option (List α × List Char)} {closing : Char}

/-- By induction on the parts: each is read in front of a comma or of the closing sign. -/
theorem row_read
    (hrow : ∀ cs, row cs = (one cs).bind fun (a, r) =>
      match sign? ',' r with
      | some t => (row t).map fun (as, u) => (a :: as, u)
      | none => (sign? closing r).map fun t => ([a], t))
    (hclosing : isSpace closing = false) (hcomma : ',' ≠ closing) (inner outer : Nat)
    {text : α → List Char} {as : List α} (hne : as ≠ [])
    (hone : ∀ a ∈ as, ∀ rest, EndsNumber rest →
      one (newline inner ++ (text a ++ rest)) = some (a, rest)) (rest : List Char) :
    row (newline inner ++ ((',' :: newline inner).intercalate (as.map text) ++
      (newline outer ++ closing :: rest))) = some (as, rest) := by
  have houter : ∀ c ∈ newline outer, isSpace c := fun c hc => isSpace_of_mem_newline hc
  induction as with
  | nil => exact absurd rfl hne
  | cons a as ih =>
    obtain ⟨hfirst, hothers⟩ := List.forall_mem_cons.mp hone
    -- Only the last part stands in front of the closing sign.
    rcases as with _ | ⟨b, as⟩
    · have hread := hfirst _ (endsNumber_newline outer (closing :: rest))
      rw [List.map_singleton, List.intercalate_singleton, hrow, hread, Option.bind_some]
      dsimp only
      rw [sign?_append houter hclosing, if_neg hcomma, sign?_append houter hclosing, if_pos rfl]
      rfl
    · have hmore := ih (List.cons_ne_nil b as) hothers
      generalize htail : newline inner ++ ((',' :: newline inner).intercalate ((b :: as).map text) ++
        (newline outer ++ closing :: rest)) = tail at hmore
      have htext : newline inner ++ ((',' :: newline inner).intercalate ((a :: b :: as).map text) ++
          (newline outer ++ closing :: rest)) = newline inner ++ (text a ++ ',' :: tail) := by
        simp [← htail, List.intercalate_cons_cons]
      have hends : EndsNumber (',' :: tail) := endsNumber_cons (by decide) (by decide)
      have hread := hfirst _ hends
      have hcomma' : sign? ',' (',' :: tail) = some tail := rfl
      rw [htext, hrow, hread, Option.bind_some]
      dsimp only
      rw [hcomma']
      dsimp only
      rw [hmore]
      rfl

end Rows

section Documents

variable {indent : Nat}

theorem prettyItems_eq_map (indent : Nat) (js : List Json) :
    pretty.prettyItems indent js = js.map (pretty (indent + 1)) := by
  induction js with
  | nil => rfl
  | cons j js ih => rw [pretty.prettyItems, ih, List.map_cons]

def memberText (indent : Nat) (m : Option String × Json) : List Char :=
  escape (m.1.getD "") ++ ':' :: ' ' :: pretty (indent + 1) m.2

theorem prettyMembers_eq_map (indent : Nat) (ms : List (Option String × Json)) :
    pretty.prettyMembers indent ms = ms.map (memberText indent) := by
  induction ms with
  | nil => rfl
  | cons m ms ih => rw [pretty.prettyMembers, ih, List.map_cons, memberText]

theorem lines_append {parts : List (List Char)} (h : parts ≠ []) (indent : Nat)
    (opening closing : Char) (rest : List Char) :
    lines indent opening closing parts ++ rest =
      opening :: (newline (indent + 1) ++ ((',' :: newline (indent + 1)).intercalate parts ++
        (newline indent ++ closing :: rest))) := by
  cases parts with
  | nil => exact absurd rfl h
  | cons part parts => simp [lines]

theorem skipSpaces_of_sign? {c : Char} {cs r : List Char} (h : sign? c cs = some r) :
    skipSpaces cs = c :: r := by
  unfold sign? at h
  cases hs : skipSpaces cs with
  | nil =>
    rw [hs] at h
    exact nomatch h
  | cons d ds =>
    rw [hs, dropWord?] at h
    split at h
    · rename_i hcd
      rw [← hcd, Option.some.inj h]
    · exact nomatch h

/-- A row that has parts does not begin with the closing sign. -/
theorem sign?_of_items? {cs : List Char} {x : List Json × List Char}
    (h : (items? cs).plain = some x) : sign? ']' cs = none := by
  rw [plain_items?, plain_value?] at h
  cases hs : sign? ']' cs with
  | none => rfl
  | some r =>
    -- A closing bracket is no document.
    have hfront : front? (']' :: r) = none := rfl
    rw [skipSpaces_of_sign? hs, hfront, Option.bind_none] at h
    exact absurd h.symm (Option.some_ne_none x)

theorem sign?_of_members? {cs : List Char} {x : List (Option String × Json) × List Char}
    (h : (members? cs).plain = some x) : sign? '\x7d' cs = none := by
  rw [plain_members?, member?, sign?] at h
  cases hs : sign? '\x7d' cs with
  | none => rfl
  | some r =>
    -- A closing brace is no quote, and a member begins with one.
    have hquote : dropWord? ['"'] ('\x7d' :: r) = none := rfl
    rw [skipSpaces_of_sign? hs, hquote, Option.bind_none, Option.bind_none] at h
    exact absurd h.symm (Option.some_ne_none x)

/-- An array is read back if its items are. -/
theorem reads_array {js : List Json} (h : ∀ j ∈ js, Reads (pretty (indent + 1) j) j) :
    Reads (pretty indent (.array js)) (.array js) := by
  intro rest _
  rw [pretty, plain_value?, prettyItems_eq_map]
  rcases js with _ | ⟨j, js⟩
  · rfl
  · have hone : ∀ k ∈ j :: js, ∀ r, EndsNumber r →
        (value? (newline (indent + 1) ++ (pretty (indent + 1) k ++ r))).plain = some (k, r) := by
      intro k hk r hr
      rw [plain_value?_append fun c hc => isSpace_of_mem_newline hc]
      exact h k hk r hr
    have hitems := row_read plain_items? (by decide) (by decide) (indent + 1) indent
      (List.cons_ne_nil j js) hone rest
    have hparts : (j :: js).map (pretty (indent + 1)) ≠ [] := List.cons_ne_nil _ _
    rw [lines_append hparts, skipSpaces_cons (by decide), front?, sign?_of_items? hitems]
    dsimp only
    rw [hitems]
    rfl

/-- A member is read as its name and its document. -/
theorem member?_memberText {name : String} {j : Json} (h : Reads (pretty (indent + 1) j) j)
    {rest : List Char} (hrest : EndsNumber rest) :
    member? (newline (indent + 1) ++ (memberText indent (some name, j) ++ rest)) =
      some ((some name, j), rest) := by
  have hblanks : ∀ c ∈ newline (indent + 1), isSpace c := fun c hc => isSpace_of_mem_newline hc
  have hspace : ∀ c ∈ [' '], isSpace c := List.forall_mem_singleton.mpr rfl
  have hvalue := h rest hrest
  obtain ⟨parts, hparts, hname⟩ := exists_textParts? name.toList
    (':' :: ' ' :: (pretty (indent + 1) j ++ rest))
  have htext : memberText indent (some name, j) ++ rest = '"' :: (name.toList.flatMap escapeChar ++
      '"' :: ':' :: ' ' :: (pretty (indent + 1) j ++ rest)) := by
    simp [memberText, escape]
  -- The space behind the colon is passed over like any other blank.
  have hcolon : sign? ':' (':' :: ' ' :: (pretty (indent + 1) j ++ rest)) =
      some ([' '] ++ (pretty (indent + 1) j ++ rest)) := rfl
  rw [member?, htext, sign?_append hblanks (by decide), if_pos rfl, Option.bind_some, hparts,
    Option.bind_some]
  dsimp only
  rw [hcolon, Option.bind_some, plain_value?_append hspace, hvalue, Option.map_some]
  dsimp only
  rw [hname, Option.map_some, String.ofList_toList]

/-- An object is read back if its members are. -/
theorem reads_object {ms : List (Option String × Json)} (hnames : ∀ m ∈ ms, m.1.isSome)
    (h : ∀ m ∈ ms, Reads (pretty (indent + 1) m.2) m.2) :
    Reads (pretty indent (.object ms)) (.object ms) := by
  intro rest _
  rw [pretty, plain_value?, prettyMembers_eq_map]
  rcases ms with _ | ⟨m, ms⟩
  · rfl
  · have hone : ∀ k ∈ m :: ms, ∀ r, EndsNumber r →
        member? (newline (indent + 1) ++ (memberText indent k ++ r)) = some (k, r) := by
      rintro ⟨name?, j⟩ hk r hr
      obtain ⟨name, rfl⟩ := Option.isSome_iff_exists.mp (hnames _ hk)
      exact member?_memberText (h _ hk) hr
    have hmembers := row_read plain_members? (by decide) (by decide) (indent + 1) indent
      (List.cons_ne_nil m ms) hone rest
    have hparts : (m :: ms).map (memberText indent) ≠ [] := List.cons_ne_nil _ _
    rw [lines_append hparts, skipSpaces_cons (by decide), front?, sign?_of_members? hmembers]
    dsimp only
    rw [hmembers]
    rfl

end Documents

/-- Documents that hold no half of a surrogate pair, and numbers only that are spelled as such. -/
inductive Readable : Json → Prop where
  | null : Readable .null
  | bool (b : Bool) : Readable (.bool b)
  | number {spelling : List Char} (h : Reads spelling (.number spelling)) :
    Readable (.number spelling)
  | text (s : String) : Readable (.text (some s))
  | array {js : List Json} (h : ∀ j ∈ js, Readable j) : Readable (.array js)
  | object {ms : List (Option String × Json)} (hnames : ∀ m ∈ ms, m.1.isSome)
    (h : ∀ m ∈ ms, Readable m.2) : Readable (.object ms)

namespace Readable

variable {j : Json}

theorem ofNat (n : Nat) : Readable (.ofNat n) := .number (reads_ofNat n)

theorem ofMembers {members : List (String × Json)} (h : ∀ m ∈ members, Readable m.2) :
    Readable (.ofMembers members) := by
  apply object
  · exact List.forall_mem_map.mpr fun m _ => rfl
  · exact List.forall_mem_map.mpr h

/-- By induction on the document: its parts are read at their places. -/
theorem reads (h : j.Readable) (indent : Nat) : Reads (j.pretty indent) j := by
  induction h generalizing indent with
  | null => exact reads_null
  | bool b => exact reads_bool b
  | number hread => exact hread
  | text s => exact reads_text s
  | array _ ih => exact reads_array fun j hj => ih j hj (indent + 1)
  | object hnames _ ih => exact reads_object hnames fun m hm => ih m hm (indent + 1)

/-- A document is read back from its text. -/
theorem read?_pretty (h : j.Readable) : read? (.ofList (j.pretty 0)) = some j := by
  have hplain := h.reads 0 [] endsNumber_nil
  rw [List.append_nil] at hplain
  rw [read?_eq, String.toList_ofList, hplain]
  rfl

end Readable

end SqlMapper.Json
