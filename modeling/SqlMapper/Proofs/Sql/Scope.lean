import SqlMapper.Proofs.Sql.Occurrences

/-!
Loops bind by lexical scope: every placeholder takes the item or the index of the very pass in which
it was written, of the innermost loop around it with that variable. Generated names are never bound
twice, and a placeholder is renamed at most once.
-/

namespace SqlMapper

open Text Placeholder

/-- The value of a placeholder by lexical scope: the variables of the passes around it, the
innermost first, and what is bound before the render. -/
def Occurrence.value (parameter : Value) (databaseId : Option String) (o : Occurrence) : Value :=
  resolve (o.frames.flatMap Frame.bindings ++ (Context.start parameter databaseId).bindings) parameter
    (.ofList (property o.content))

def Fragment.placeholders (f : Fragment) (parameter : Value) (databaseId : Option String) :
    Option (List Occurrence) :=
  f.reading? Occurrence.reading parameter databaseId

section Resolve

variable {bindings bindings' : Entries Value} {parameter : Value} {content : List Char}

/-- Of the bindings only the one of the first segment counts. -/
theorem resolve_congr (h : bindings.lookup (head content) = bindings'.lookup (head content)) :
    resolve bindings parameter (.ofList (property content)) =
      resolve bindings' parameter (.ofList (property content)) := by
  unfold resolve
  simp only [String.toList_ofList]
  rw [← head, h]

/-- A path whose first segment has another name but the same value. -/
theorem resolve_withHead {name : String} (hname : IsSegment name) (hne : property content ≠ [])
    {v : Value} (h : bindings.lookup name = some v)
    (h' : bindings'.lookup (head content) = some v) :
    resolve bindings parameter (.ofList (property (withHead name content))) =
      resolve bindings' parameter (.ofList (property content)) := by
  have hafter : after? '.' (property (withHead name content)) = after? '.' (property content) := by
    rw [property_withHead hname hne, after?, dropWhile_append hname.noDot (head?_dropWhile '.' _),
      after?]
  unfold resolve
  simp only [String.toList_ofList]
  rw [← head, ← head, head_withHead hname hne, h, h', hafter]
  cases after? '.' (property content) with
  | none => rfl
  | some rest => rfl

end Resolve

namespace Context

/-- What a step may do to the bindings: it takes new numbers for generated names and leaves the
older ones as they are; all other names, apart from the given ones, stay as they were or are bound
no more. -/
structure Settles (vars : List String) (c d : Context) : Prop where
  counter : c.counter ≤ d.counter
  generated : ∀ var n, n < c.counter →
    d.bindings.lookup (Loop.generated var n) = c.bindings.lookup (Loop.generated var n)
  names : ∀ name, ¬ Loop.isGenerated name.toList → name ∉ vars →
    d.bindings.lookup name = c.bindings.lookup name ∨
      name ∉ Loop.reservedNames ∧ d.bindings.lookup name = none

namespace Settles

variable {vars : List String} {c d e : Context}

theorem refl (vars : List String) (c : Context) : Settles vars c c :=
  ⟨le_rfl, fun _ _ _ => rfl, fun _ _ _ => .inl rfl⟩

theorem trans (h : Settles vars c d) (h' : Settles vars d e) : Settles vars c e where
  counter := h.counter.trans h'.counter
  generated var n hn := (h'.generated var n (hn.trans_le h.counter)).trans (h.generated var n hn)
  names name hname hvars := by
    rcases h'.names name hname hvars with heq | hnone
    · rw [heq]
      exact h.names name hname hvars
    · exact .inr hnone

theorem weaken (h : Settles [] c d) (vars : List String) : Settles vars c d :=
  ⟨h.counter, h.generated, fun name hname _ => h.names name hname List.not_mem_nil⟩

end Settles

end Context

namespace Loop

open Context

variable {loop : Loop} {c d : Context}

theorem counter_unbindVars (loop : Loop) (c : Context) : (loop.unbindVars c).counter = c.counter := by
  unfold unbindVars
  induction loop.vars generalizing c with
  | nil => rfl
  | cons var vars ih => exact ih (c.unbind var)

theorem lookup_unbindVars (loop : Loop) (c : Context) (name : String) :
    (loop.unbindVars c).bindings.lookup name =
      if name ∈ loop.vars then none else c.bindings.lookup name := by
  unfold unbindVars
  induction loop.vars generalizing c with
  | nil => rfl
  | cons var vars ih =>
    rw [List.foldl_cons, ih, Context.unbind, Entries.lookup_erase]
    by_cases hvar : name = var
    · simp [hvar]
    · simp [hvar]

theorem not_mem_vars_of_isGenerated (hvars : ∀ var ∈ loop.vars, IsVariable var) {name : String}
    (h : isGenerated name.toList) : name ∉ loop.vars :=
  fun hmem => (hvars name hmem).notGenerated h

/-- When its variables are bound no more, a loop has only settled what was there before. -/
theorem settles_unbindVars (hvars : ∀ var ∈ loop.vars, IsVariable var)
    (h : Settles loop.vars c d) : Settles [] c (loop.unbindVars d) where
  counter := by
    rw [counter_unbindVars]
    exact h.counter
  generated var n hn := by
    rw [lookup_unbindVars,
      if_neg (not_mem_vars_of_isGenerated hvars (isGenerated_generated var n))]
    exact h.generated var n hn
  names name hname _ := by
    rw [lookup_unbindVars]
    split
    · rename_i hmem
      exact .inr ⟨(hvars name hmem).notReserved, rfl⟩
    · rename_i hmem
      exact h.names name hname hmem

theorem mem_vars {name : String} : name ∈ loop.vars ↔ name ∈ loop.item ∨ name ∈ loop.index := by
  simp [vars]

theorem counter_bindVar (var : Option String) (n : Nat) (v : Value) (c : Context) :
    (bindVar var n v c).counter = c.counter := by
  cases var with
  | none => rfl
  | some x => rfl

theorem lookup_bindVar_generated {var : Option String} (hvar : ∀ x ∈ var, IsVariable x) (n : Nat)
    (v : Value) (c : Context) (name : String) (m : Nat) :
    (bindVar var n v c).bindings.lookup (generated name m) =
      if name ∈ var ∧ m = n then some v else c.bindings.lookup (generated name m) := by
  cases var with
  | none => simp [bindVar]
  | some x =>
    have hx : generated name m ≠ x := fun h =>
      (hvar x rfl).notGenerated (h ▸ isGenerated_generated name m)
    have heq : generated name m = generated x n ↔ x = name ∧ m = n :=
      ⟨fun h => ⟨(generated_inj h).1.symm, (generated_inj h).2⟩, fun h => by rw [h.1, h.2]⟩
    simp [bindVar, Context.bind, Entries.lookup_insert, hx, heq]

theorem lookup_bindVar_name {var : Option String} (n : Nat) (v : Value) (c : Context) {name : String}
    (hname : ¬ isGenerated name.toList) : (bindVar var n v c).bindings.lookup name =
      if name ∈ var then some v else c.bindings.lookup name := by
  cases var with
  | none => simp [bindVar]
  | some x =>
    have hx : name ≠ generated x n := fun h => hname (h ▸ isGenerated_generated x n)
    simp [bindVar, Context.bind, Entries.lookup_insert, hx, eq_comm]

/-- A pass leaves older generated names as they are, and of the others changes only the loop's. -/
theorem settles_opened (hvars : ∀ var ∈ loop.vars, IsVariable var) (index item : Value)
    (c : Context) : Settles loop.vars c (loop.opened index item c) where
  counter := by
    rw [opened, counter_bindVar, counter_bindVar]
    exact Nat.le_succ c.counter
  generated name m hm := by
    rw [opened, lookup_bindVar_generated fun x hx => hvars x (mem_vars.mpr (.inl hx)),
      lookup_bindVar_generated fun x hx => hvars x (mem_vars.mpr (.inr hx)),
      if_neg fun h => hm.ne h.2, if_neg fun h => hm.ne h.2]
  names name hname hmem := by
    rw [mem_vars, not_or] at hmem
    rw [opened, lookup_bindVar_name _ _ _ hname, lookup_bindVar_name _ _ _ hname, if_neg hmem.1,
      if_neg hmem.2]
    exact .inl rfl

end Loop

namespace Frame

theorem lookup_bindings (frame : Frame) (name : String) : frame.bindings.lookup name =
    if name ∈ frame.loop.item then some frame.item
    else if name ∈ frame.loop.index then some frame.index else none := by
  unfold bindings
  cases frame.loop.item <;> cases frame.loop.index <;>
    simp [Entries.lookup_cons_eq_ite, eq_comm]

theorem exists_lookup_of_mem {frame : Frame} {name : String} (h : name ∈ frame.loop.vars) :
    ∃ v, frame.bindings.lookup name = some v := by
  rw [lookup_bindings]
  by_cases hitem : name ∈ frame.loop.item
  · exact ⟨frame.item, if_pos hitem⟩
  · have hindex : name ∈ frame.loop.index := (Loop.mem_vars.mp h).resolve_left hitem
    exact ⟨frame.index, by rw [if_neg hitem, if_pos hindex]⟩

theorem lookup_of_notMem {frame : Frame} {name : String} (h : name ∉ frame.loop.vars) :
    frame.bindings.lookup name = none := by
  rw [Loop.mem_vars, not_or] at h
  rw [lookup_bindings, if_neg h.1, if_neg h.2]

structure BoundIn (d : Context) (frame : Frame) : Prop where
  vars : ∀ var ∈ frame.loop.vars, Loop.IsVariable var
  number : frame.number < d.counter
  values : ∀ var v, frame.bindings.lookup var = some v →
    d.bindings.lookup (Loop.generated var frame.number) = some v

theorem BoundIn.mono {vars : List String} {c d : Context} {frame : Frame} (h : frame.BoundIn c)
    (hsettles : Context.Settles vars c d) : frame.BoundIn d where
  vars := h.vars
  number := h.number.trans_le hsettles.counter
  values var v hv := by
    rw [hsettles.generated var frame.number h.number]
    exact h.values var v hv

/-- A pass that is opened has its item and its index bound under its generated names. -/
theorem boundIn_opened {loop : Loop} (hvars : ∀ var ∈ loop.vars, Loop.IsVariable var)
    (index item : Value) (c : Context) :
    (⟨loop, c.counter, index, item⟩ : Frame).BoundIn (loop.opened index item c) where
  vars := hvars
  number := by
    rw [Loop.opened, Loop.counter_bindVar, Loop.counter_bindVar]
    exact Nat.lt_succ_self c.counter
  values var v hv := by
    rw [lookup_bindings] at hv
    rw [Loop.opened,
      Loop.lookup_bindVar_generated fun x hx => hvars x (Loop.mem_vars.mpr (.inl hx)),
      Loop.lookup_bindVar_generated fun x hx => hvars x (Loop.mem_vars.mpr (.inr hx))]
    split at hv
    · rename_i hitem
      rw [if_pos ⟨hitem, rfl⟩]
      exact hv
    · rename_i hitem
      rw [if_neg fun h => hitem h.1]
      split at hv
      · rename_i hindex
        rw [if_pos ⟨hindex, rfl⟩]
        exact hv
      · exact nomatch hv

end Frame

structure Occurrence.BoundIn (d : Context) (o : Occurrence) : Prop where
  path : ¬ Loop.isGenerated (property o.content)
  frames : ∀ frame ∈ o.frames, frame.BoundIn d

theorem Occurrence.BoundIn.mono {vars : List String} {c d : Context} {o : Occurrence}
    (h : o.BoundIn c) (hsettles : Context.Settles vars c d) : o.BoundIn d :=
  ⟨h.path, fun frame hframe => (h.frames frame hframe).mono hsettles⟩

structure Context.Leaves (c : Context) (os : List Occurrence) (d : Context) : Prop where
  settles : c.Settles [] d
  bound : ∀ o ∈ os, o.BoundIn d

namespace Context.Leaves

variable {c d e : Context} {os os' : List Occurrence}

theorem nil (c : Context) : c.Leaves [] c := ⟨.refl [] c, nofun⟩

theorem append (h : c.Leaves os d) (h' : d.Leaves os' e) : c.Leaves (os ++ os') e where
  settles := h.settles.trans h'.settles
  bound := List.forall_mem_append.mpr ⟨fun o ho => (h.bound o ho).mono h'.settles, h'.bound⟩

end Context.Leaves

namespace Occurrence

open Context

theorem bound_ofText {s : String} (hs : Placeholder.Tidy s) (c : Context) :
    ∀ o ∈ reading.ofText s, o.BoundIn c := by
  obtain ⟨_, ⟨ps, htext, hps, rfl⟩, hpaths⟩ := hs
  dsimp only [reading]
  rw [← htext, pieces?_text hps, Option.getD_some]
  refine List.forall_mem_map.mpr fun content hcontent => ⟨hpaths content hcontent, ?_⟩
  exact fun frame hframe => absurd hframe List.not_mem_nil

def bindings : BindingAccount reading .tidy where
  Leaves := Context.Leaves
  InLoop loop c os d := Settles loop.vars c d ∧ ∀ o ∈ os, o.BoundIn d
  nil := .nil
  append := .append
  text h c := ⟨.refl [] c, bound_ofText h c⟩
  binding h := h.elim
  loopNil _ c := ⟨.refl _ c, nofun⟩
  loopAppend := by
    rintro loop c d e os os' ⟨hsettles, hbound⟩ ⟨hsettles', hbound'⟩
    exact ⟨hsettles.trans hsettles',
      List.forall_mem_append.mpr ⟨fun o ho => (hbound o ho).mono hsettles', hbound'⟩⟩
  pass {_ loop index item c os d} hloop hleaves := by
    have hopened := Loop.settles_opened hloop.vars index item c
    refine ⟨hopened.trans (hleaves.settles.weaken loop.vars), ?_⟩
    rw [ofPass_reading]
    -- Each placeholder of the body gets this pass as its outermost one.
    refine List.forall_mem_map.mpr fun o ho => ⟨(hleaves.bound o ho).path, ?_⟩
    refine List.forall_mem_append.mpr ⟨(hleaves.bound o ho).frames, fun frame hframe => ?_⟩
    rw [List.mem_singleton.mp hframe]
    exact (Frame.boundIn_opened hloop.vars index item c).mono hleaves.settles
  close {_ loop _ _ d} hloop h := by
    have hunbound := Loop.settles_unbindVars hloop.vars (.refl loop.vars d)
    exact ⟨Loop.settles_unbindVars hloop.vars h.1, fun o ho => (h.2 o ho).mono hunbound⟩

end Occurrence

/-! What a placeholder stands for. -/

namespace Occurrence

variable {parameter : Value} {databaseId : Option String} {d : Context} {o : Occurrence}

theorem isGenerated_property {content : List Char} (h : Loop.isGenerated (head content).toList) :
    Loop.isGenerated (property content) := by
  rw [head, String.toList_ofList] at h
  exact List.isPrefixOf_iff_prefix.mpr
    ((List.isPrefixOf_iff_prefix.mp h).trans (List.takeWhile_prefix _))

theorem lookup_start {name : String} (h : name ∉ Loop.reservedNames) :
    (Context.start parameter databaseId).bindings.lookup name = none := by
  have hnames : name ≠ Context.parameterName ∧ name ≠ Context.databaseName := by
    simpa [Loop.reservedNames] using h
  simp [Context.start, Entries.ofList, Entries.lookup_insert, hnames]

/-- The loops around a placeholder that was renamed leave it as it is. -/
theorem foldl_renameContent {frames : List Frame} (hframes : ∀ frame ∈ frames, frame.BoundIn d)
    {content : List Char} (h : Loop.isGenerated (head content).toList) :
    frames.foldl (fun content frame => Loop.renameContent frame.loop.vars frame.number content)
      content = content := by
  induction frames with
  | nil => rfl
  | cons frame frames ih =>
    obtain ⟨hframe, hframes⟩ := List.forall_mem_cons.mp hframes
    rw [List.foldl_cons, Loop.renameContent_of_isGenerated hframe.vars h, ih hframes]

/-- By lexical scope a placeholder has the value that is bound under its new name when the render is
over. -/
theorem resolve_renamed (h : o.BoundIn d)
    (hsettles : (Context.start parameter databaseId).Settles [] d) :
    resolve d.bindings parameter (.ofList (property o.renamed)) = o.value parameter databaseId := by
  obtain ⟨content, frames⟩ := o
  obtain ⟨hpath, hframes⟩ := h
  unfold renamed value
  dsimp only at hpath hframes ⊢
  -- On the passes around the placeholder, from the innermost one outwards.
  induction frames with
  | nil =>
    rw [List.foldl_nil, List.flatMap_nil, List.nil_append]
    refine resolve_congr ?_
    -- With no loop left, the name is bound as it was before the render, or is not bound at all.
    rcases hsettles.names (head content) (mt isGenerated_property hpath) List.not_mem_nil with
      heq | ⟨hreserved, hnone⟩
    · exact heq
    · rw [hnone, lookup_start hreserved]
  | cons frame frames ih =>
    obtain ⟨hframe, hframes⟩ := List.forall_mem_cons.mp hframes
    rw [List.foldl_cons, List.flatMap_cons, List.append_assoc, Loop.renameContent_eq hframe.vars]
    split
    · -- The innermost loop with a variable of that name.
      rename_i hmem
      have hvar := hframe.vars _ hmem
      have hsegment := Loop.isSegment_generated hvar frame.number
      have hne : property content ≠ [] := by
        intro hnil
        exact hvar.ne_empty (by rw [head, hnil]; rfl)
      have hgenerated : Loop.isGenerated
          (head (withHead (Loop.generated (head content) frame.number) content)).toList := by
        rw [head_withHead hsegment hne]
        exact Loop.isGenerated_generated _ _
      obtain ⟨v, hv⟩ := Frame.exists_lookup_of_mem hmem
      rw [foldl_renameContent hframes hgenerated]
      refine resolve_withHead hsegment hne (hframe.values _ v hv) ?_
      rw [List.lookup_append, hv]
      rfl
    · -- The loop has no such variable: the ones around it decide.
      rename_i hmem
      have hnone := Frame.lookup_of_notMem hmem
      rw [ih hframes]
      refine resolve_congr ?_
      conv_rhs => rw [List.lookup_append, hnone, Option.none_or]

end Occurrence

namespace Fragment

open Render

/-- In a tidy fragment loops bind by lexical scope: whenever its render goes well, the bound
statement has one question mark and one property for each placeholder that the render comes to, in
the order of the text, and its value is that of its path in the passes around it. -/
theorem bound_values_lexical (f : Fragment) (hf : f.Tidy) {parameter : Value}
    {databaseId : Option String} {b : Bool} {ctx : Context}
    (h : f.render.run (Context.start parameter databaseId) = (.ok b, ctx)) :
    ∃ (os : List Occurrence) (ps : List Piece) (bound : BoundSql),
      f.placeholders parameter databaseId = some os ∧
      (Source.rendered f databaseId).bound parameter = .ok bound ∧
      ctx.sql.toList = ps.flatMap Piece.text ∧
      ps.filterMap Piece.content? = os.map Occurrence.renamed ∧
      bound.sql.toList = ps.flatMap (·.replace fun _ => ['?']) ∧
      bound.properties = os.map (fun o => .ofList (property o.renamed)) ∧
      bound.values = os.map (Occurrence.value parameter databaseId) := by
  obtain ⟨os, texts, hos, hsql, hin⟩ := Occurrence.texts.run_read h ()
  have hleaves : (Context.start parameter databaseId).Leaves os ctx.bare :=
    Occurrence.bindings.run_read f () hf _ _ _ hos
  have hsql : Carries ctx.sql.toList (os.map Occurrence.renamed) := by
    rw [hsql, toList_trim]
    exact (hin hf).carries_joined.trimChars
  obtain ⟨ps, htext, hps, hcontents⟩ := hsql
  have htemplate : template ctx.sql = .ok (.ofPieces ps) := by
    rw [template, pieces, ← htext, pieces?_text hps]
    rfl
  have hproperties : (Template.ofPieces ps).properties =
      os.map fun o => .ofList (property o.renamed) := by
    have hproperty : Piece.property? = fun p => (Piece.content? p).map fun content =>
        .ofList (property content) := by
      funext p
      cases p <;> rfl
    rw [Template.ofPieces, hproperty, ← List.map_filterMap, hcontents, List.map_map]
    rfl
  refine ⟨os, ps, { BoundSql.ofTemplate (.ofPieces ps) parameter with additional := ctx.bindings },
    ?_, ?_, htext.symm, hcontents, ?_, hproperties, ?_⟩
  · exact reading?_eq_some hos
  · rw [Source.bound, h]
    dsimp only
    rw [htemplate]
    rfl
  · exact String.toList_ofList
  · change (Template.ofPieces ps).properties.map (resolve ctx.bindings parameter) = _
    rw [hproperties, List.map_map]
    refine List.map_congr_left fun o ho => ?_
    have hvalue := Occurrence.resolve_renamed (hleaves.bound o ho) hleaves.settles
    exact hvalue

def grouped : Fragment :=
  .sequence [.text "SELECT * FROM t",
    .trim ⟨some "WHERE", ["AND ", "OR "], none, []⟩ (.foreach
      ⟨"groups", some "x", some "i", "(", ")", " OR ", false⟩
      (.sequence [.text "AND id IN",
        .foreach ⟨"x.ids", some "x", none, "(", ")", ", ", false⟩ (.text "#\x7bx, type=INT\x7d"),
        .text "AND n IN (#\x7bx.name\x7d, #\x7bi\x7d, #\x7bowner\x7d)"]))]

def groups : Value :=
  .ofPairs [("owner", .text "me"), ("groups", .list [
    .ofPairs [("ids", .list [.text "1"]), ("name", .text "a")],
    .ofPairs [("ids", .list [.text "2"]), ("name", .text "b")]])]

/-- The inner loop takes the name of the outer item away only where it stands itself. -/
example : (grouped.placeholders groups none).map (·.map (Occurrence.value groups none)) =
    some [.text "1", .text "a", .int 0, .text "me", .text "2", .text "b", .int 1, .text "me"] := by
  decide +kernel

theorem bound_values_grouped : grouped.Tidy ∧ ∃ b ctx,
    grouped.render.run (Context.start groups none) = (.ok b, ctx) ∧
    ∃ (os : List Occurrence) (ps : List Piece) (bound : BoundSql),
      grouped.placeholders groups none = some os ∧
      (Source.rendered grouped none).bound groups = .ok bound ∧
      ctx.sql.toList = ps.flatMap Piece.text ∧
      ps.filterMap Piece.content? = os.map Occurrence.renamed ∧
      bound.sql.toList = ps.flatMap (·.replace fun _ => ['?']) ∧
      bound.properties = os.map (fun o => .ofList (property o.renamed)) ∧
      bound.values = os.map (Occurrence.value groups none) := by
  have htext (s : String) (h : let ps := (pieces? s.toList).getD []
      ps.flatMap Piece.text = s.toList ∧ (∀ p ∈ ps, p.isClean) ∧
        ∀ content ∈ ps.filterMap Piece.content?, ¬ Loop.isGenerated (property content)) :
      Placeholder.Tidy s :=
    ⟨_, ⟨_, h.1, h.2.1, rfl⟩, h.2.2⟩
  have htidy : grouped.Tidy := by
    refine ⟨htext _ (by decide +kernel), ⟨show Trim.isPlain _ by decide,
      ⟨by decide, by decide, by decide, by decide⟩,
      htext _ (by decide +kernel), ⟨⟨by decide, by decide, by decide, by decide⟩,
        htext _ (by decide +kernel)⟩, htext _ (by decide +kernel), trivial⟩, trivial⟩
  have hgood : (grouped.render.run (Context.start groups none)).1.toBool = true := by
    decide +kernel
  rcases hrun : grouped.render.run (Context.start groups none) with ⟨e | b, ctx⟩
  · rw [hrun] at hgood
    exact nomatch hgood
  · exact ⟨htidy, b, ctx, rfl, bound_values_lexical grouped htidy hrun⟩

end Fragment
end SqlMapper
