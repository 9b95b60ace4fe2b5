import SqlMapper.Proofs.Sql.Scope

/-!
What a loop leaves bound: its variables are taken away, whatever they stood for before, and every
other path means after the loop what it meant before.
-/

namespace SqlMapper

open Text

namespace Fragment

def nodes : Fragment → List Fragment
  | .text s => [.text s]
  | .sequence children => .sequence children :: nodesAll children
  | .cond test body => .cond test body :: nodes body
  | .choose whens none => .choose whens none :: nodesFirst whens
  | .choose whens (some otherwise) =>
    .choose whens (some otherwise) :: (nodesFirst whens ++ nodes otherwise)
  | .trim rule body => .trim rule body :: nodes body
  | .bind name value => [.bind name value]
  | .foreach loop body => .foreach loop body :: nodes body
where
  nodesAll : List Fragment → List Fragment
    | [] => []
    | f :: fs => nodes f ++ nodesAll fs
  nodesFirst : List (Test × Fragment) → List Fragment
    | [] => []
    | (_, f) :: fs => nodes f ++ nodesFirst fs

def loop? : Fragment → Option Loop
  | .foreach loop _ => some loop
  | _ => none

def loopVars (f : Fragment) : List String :=
  (f.nodes.filterMap loop?).flatMap Loop.vars

theorem mem_loopVars {f : Fragment} {name : String} :
    name ∈ f.loopVars ↔ ∃ loop body, .foreach loop body ∈ f.nodes ∧ name ∈ loop.vars := by
  rw [loopVars, List.mem_flatMap]
  constructor
  · rintro ⟨loop, hloop, hname⟩
    obtain ⟨g, hg, hsome⟩ := List.mem_filterMap.mp hloop
    cases g with
    | foreach loop' body =>
      obtain rfl := Option.some.inj hsome
      exact ⟨loop', body, hg, hname⟩
    | _ => exact nomatch hsome
  · rintro ⟨loop, body, hloop, hname⟩
    exact ⟨loop, List.mem_filterMap.mpr ⟨_, hloop, rfl⟩, hname⟩

section Frame

open Render

variable {R : Context → Context → Prop}

def Respects (R : Context → Context → Prop) : Fragment → Prop
  | .bind name _ => ∀ c v, R c (c.bind name v)
  | .foreach loop body => Leads R body.render → Leads R (loop.render body.render)
  | _ => True

/-- A relation that all the bindings and loops in a fragment keep is kept by its render. -/
theorem leads_render (hR : IsFrame R) : (f : Fragment) → (∀ g ∈ f.nodes, g.Respects R) →
    Leads R f.render
  | .text s, _ => (leads_append hR s).bind hR fun _ => leads_pure hR _
  | .sequence children, h => all children (List.forall_mem_cons.mp h).2
  | .cond test body, h => by
    refine (leads_ofContext hR _).bind hR fun held => ?_
    cases held with
    | true =>
      exact (leads_render hR body (List.forall_mem_cons.mp h).2).bind hR fun _ => leads_pure hR _
    | false => exact leads_pure hR _
  | .choose whens none, h => first whens (List.forall_mem_cons.mp h).2
  | .choose whens (some otherwise), h => by
    obtain ⟨hwhens, hotherwise⟩ := List.forall_mem_append.mp (List.forall_mem_cons.mp h).2
    refine (first whens hwhens).bind hR fun found => ?_
    cases found with
    | true => exact leads_pure hR _
    | false => exact (leads_render hR otherwise hotherwise).bind hR fun _ => leads_pure hR _
  | .trim rule body, h =>
    ((leads_render hR body (List.forall_mem_cons.mp h).2).isolated hR).bind hR fun _ =>
      (leads_append hR _).bind hR fun _ => leads_pure hR _
  | .bind name value, h =>
    (leads_ofContext hR _).bind hR fun v =>
      (leads_modify fun c => (List.forall_mem_cons.mp h).1 c v).bind hR fun _ => leads_pure hR _
  | .foreach loop body, h =>
    (List.forall_mem_cons.mp h).1 (leads_render hR body (List.forall_mem_cons.mp h).2)
where
  all : (fs : List Fragment) → (∀ g ∈ nodes.nodesAll fs, g.Respects R) →
      Leads R (render.renderAll fs)
    | [], _ => leads_pure hR _
    | f :: fs, h => by
      obtain ⟨hf, hfs⟩ := List.forall_mem_append.mp h
      exact (leads_render hR f hf).bind hR fun _ => (all fs hfs).bind hR fun _ => leads_pure hR _
  first : (fs : List (Test × Fragment)) → (∀ g ∈ nodes.nodesFirst fs, g.Respects R) →
      Leads R (render.renderFirst fs)
    | [], _ => leads_pure hR _
    | (test, f) :: fs, h => by
      obtain ⟨hf, hfs⟩ := List.forall_mem_append.mp h
      refine (leads_ofContext hR _).bind hR fun held => ?_
      cases held with
      | true => exact (leads_render hR f hf).bind hR fun _ => leads_pure hR _
      | false => exact first fs hfs

end Frame

end Fragment

def firstSegment (path : String) : String :=
  .ofList (before '.' path.toList)

/-- A path means the same as long as its first segment does. -/
theorem resolve_eq_of_lookup {bindings bindings' : Entries Value} {path : String}
    (h : bindings.lookup (firstSegment path) = bindings'.lookup (firstSegment path))
    (parameter : Value) : resolve bindings parameter path = resolve bindings' parameter path := by
  unfold firstSegment at h
  unfold resolve
  dsimp only
  rw [h]

namespace Context

/-- The parameter is the same, and a name is bound as before, or is one of the given variables and
bound no more. -/
structure Spares (vars : List String) (name : String) (c d : Context) : Prop where
  parameter : d.parameter = c.parameter
  lookup : d.bindings.lookup name = c.bindings.lookup name ∨
    name ∈ vars ∧ d.bindings.lookup name = none

theorem isFrame_spares (vars : List String) (name : String) :
    Render.IsFrame (Spares vars name) where
  refl c := ⟨rfl, .inl rfl⟩
  trans h h' := by
    refine ⟨h'.parameter.trans h.parameter, ?_⟩
    rcases h'.lookup with heq | hnone
    · rw [heq]
      exact h.lookup
    · exact .inr hnone
  buffers c _ _ _ := ⟨rfl, .inl rfl⟩

variable {c d : Context}

theorem valueAt_congr (hparameter : d.parameter = c.parameter) {path : String}
    (h : d.bindings.lookup (firstSegment path) = c.bindings.lookup (firstSegment path)) :
    d.valueAt path = c.valueAt path := by
  unfold valueAt
  rw [hparameter, resolve_eq_of_lookup h]

/-- Taking a name away changes the meaning of the paths that begin with it alone. -/
theorem valueAt_unbind (hparameter : d.parameter = c.parameter) {path : String}
    (h : d.bindings.lookup (firstSegment path) = none) :
    d.valueAt path = (c.unbind (firstSegment path)).valueAt path := by
  have hunbound : (c.unbind (firstSegment path)).bindings.lookup (firstSegment path) = none := by
    rw [unbind, Entries.lookup_erase, if_pos rfl]
  exact valueAt_congr (c := c.unbind _) hparameter (h.trans hunbound.symm)

end Context

namespace Loop

open Context Render

variable {loop : Loop} {body : Render Bool} {vars : List String} {name : String}

theorem parameter_unbindVars (loop : Loop) (c : Context) :
    (loop.unbindVars c).parameter = c.parameter := by
  unfold unbindVars
  induction loop.vars generalizing c with
  | nil => rfl
  | cons var vars ih => exact ih (c.unbind var)

theorem parameter_bindVar (var : Option String) (n : Nat) (v : Value) (c : Context) :
    (bindVar var n v c).parameter = c.parameter := by
  cases var with
  | none => rfl
  | some x => rfl

/-- Names that are not the loop's own go through its passes as the body leaves them. -/
theorem leads_texts {R : Context → Context → Prop} (hR : IsFrame R)
    (hbind : ∀ n index item c, R c (bindVar loop.item n item (bindVar loop.index n index c)))
    (hbody : Leads R body) (entries : List (Value × Value)) :
    Leads R (loop.texts body entries) := by
  induction entries with
  | nil => exact leads_pure hR _
  | cons entry entries ih =>
    have hpass : Leads R (loop.pass body entry.1 entry.2) :=
      (leads_nextNumber hR).bind hR fun n => (leads_modify (hbind n _ _)).bind hR fun _ =>
        (hbody.isolated hR).bind hR fun _ => leads_ofContext hR _
    exact hpass.bind hR fun _ => ih.bind hR fun _ => leads_pure hR _

/-- A loop that makes a pass ends with its variables taken away. -/
theorem run_render {c d : Context} {b : Bool} (h : (loop.render body).run c = (.ok b, d)) :
    ∃ entries, loop.passes (c.valueAt loop.collection) = .ok entries ∧
      (entries = [] ∧ d = c ∨ entries ≠ [] ∧ ∃ texts mid,
        (loop.texts body entries).run c = (.ok texts, mid) ∧
        d.bindings = (loop.unbindVars mid).bindings ∧ d.parameter = mid.parameter) := by
  obtain ⟨entries, mid, hentries, hrest⟩ := run_bind_eq_ok.mp h
  obtain ⟨hpasses, rfl⟩ := Prod.mk.inj hentries
  refine ⟨entries, hpasses, ?_⟩
  cases entries with
  | nil =>
    obtain ⟨-, rfl⟩ := ok_inj hrest
    exact .inl ⟨rfl, rfl⟩
  | cons entry entries =>
    obtain ⟨texts, mid, htexts, hrest⟩ := run_bind_eq_ok.mp hrest
    obtain ⟨_, after, hunbind, hrest⟩ := run_bind_eq_ok.mp hrest
    obtain ⟨-, rfl⟩ := ok_inj hunbind
    obtain ⟨_, last, happend, hlast⟩ := run_bind_eq_ok.mp hrest
    obtain ⟨-, rfl⟩ := ok_inj happend
    obtain ⟨-, rfl⟩ := ok_inj hlast
    refine .inr ⟨List.cons_ne_nil _ _, texts, mid, htexts, ?_⟩
    unfold append
    split
    · exact ⟨rfl, parameter_unbindVars loop mid⟩
    · exact ⟨rfl, parameter_unbindVars loop mid⟩

/-- A loop spares a name that is not like its generated ones: its own variables it takes away. -/
theorem leads_spares (hvars : ∀ var ∈ loop.vars, var ∈ vars) (hname : ¬ isGenerated name.toList)
    (hbody : Leads (Spares vars name) body) : Leads (Spares vars name) (loop.render body) := by
  intro c b d h
  obtain ⟨entries, -, ⟨-, rfl⟩ | ⟨-, texts, mid, htexts, hbindings, hparameter⟩⟩ := run_render h
  · exact (isFrame_spares vars name).refl _
  by_cases hmem : name ∈ loop.vars
  · -- In the passes the name stands for other things, but it is taken away at the end.
    have hkeeps : IsFrame fun c d => d.parameter = c.parameter :=
      ⟨fun _ => rfl, fun h h' => h'.trans h, fun _ _ _ _ => rfl⟩
    have hmid : mid.parameter = c.parameter :=
      leads_texts hkeeps (fun n index item c => by rw [parameter_bindVar, parameter_bindVar])
        (fun _ _ _ h => (hbody h).parameter) entries htexts
    refine ⟨hparameter.trans hmid, .inr ⟨hvars name hmem, ?_⟩⟩
    rw [hbindings, lookup_unbindVars, if_pos hmem]
  · have hmid : Spares vars name c mid := by
      refine leads_texts (isFrame_spares vars name) (fun n index item c => ⟨?_, .inl ?_⟩) hbody
        entries htexts
      · rw [parameter_bindVar, parameter_bindVar]
      · obtain ⟨hitem, hindex⟩ := not_or.mp (mem_vars.not.mp hmem)
        rw [lookup_bindVar_name _ _ _ hname, lookup_bindVar_name _ _ _ hname, if_neg hitem,
          if_neg hindex]
    refine ⟨hparameter.trans hmid.parameter, ?_⟩
    rw [hbindings, lookup_unbindVars, if_neg hmem]
    exact hmid.lookup

end Loop

namespace Fragment

open Context Render

/-- A fragment without bound names spares every name that is not like the generated ones, apart from
the variables of its loops. -/
theorem leads_spares_render {f : Fragment} (hbind : ∀ name value, .bind name value ∉ f.nodes)
    {vars : List String} (hvars : ∀ var ∈ f.loopVars, var ∈ vars) {name : String}
    (hname : ¬ Loop.isGenerated name.toList) : Leads (Spares vars name) f.render := by
  refine leads_render (isFrame_spares vars name) f fun g hg => ?_
  cases g with
  | bind name value => exact absurd hg (hbind name value)
  | foreach loop body =>
    exact Loop.leads_spares (fun var hvar => hvars var (mem_loopVars.mpr ⟨loop, body, hg, hvar⟩)) hname
  | _ => trivial

theorem isGenerated_firstSegment {path : String} (h : ¬ Loop.isGenerated path.toList) :
    ¬ Loop.isGenerated (firstSegment path).toList := by
  intro hsegment
  rw [firstSegment, String.toList_ofList] at hsegment
  exact h (List.isPrefixOf_iff_prefix.mpr
    ((List.isPrefixOf_iff_prefix.mp hsegment).trans (List.takeWhile_prefix _)))

/-- Loop variables stay inside their loop as far as they were unbound before it. After a loop
without bound names in its body, a path means what it meant before, except when its first segment
was bound and is the variable of a loop: the loop then takes the binding away, and the path means
what it would mean had the name never been bound. The variables of the loop itself end so after any
pass; without a pass nothing changes. -/
theorem valueAt_after_foreach {loop : Loop} {body : Fragment}
    (hbind : ∀ name value, .bind name value ∉ body.nodes) {c d : Context} {b : Bool}
    (h : (Fragment.foreach loop body).render.run c = (.ok b, d)) {path : String}
    (hpath : ¬ Loop.isGenerated path.toList) :
    let name := firstSegment path
    (d.valueAt path = c.valueAt path ∨
      name ∈ (Fragment.foreach loop body).loopVars ∧
        d.valueAt path = (c.unbind name).valueAt path) ∧
    (name ∉ (Fragment.foreach loop body).loopVars ∨ c.bindings.lookup name = none →
      d.valueAt path = c.valueAt path) ∧
    (loop.passes (c.valueAt loop.collection) = .ok [] → d.valueAt path = c.valueAt path) ∧
    (loop.passes (c.valueAt loop.collection) ≠ .ok [] → name ∈ loop.vars →
      d.valueAt path = (c.unbind name).valueAt path) := by
  intro name
  have hnone : ∀ name value, .bind name value ∉ (Fragment.foreach loop body).nodes := by
    intro name value hmem
    rcases List.mem_cons.mp hmem with heq | hbody
    · exact nomatch heq
    · exact hbind name value hbody
  have hspares : Spares (Fragment.foreach loop body).loopVars name c d :=
    leads_spares_render hnone (fun _ hvar => hvar) (isGenerated_firstSegment hpath) h
  refine ⟨?_, ?_, ?_, ?_⟩
  · rcases hspares.lookup with heq | ⟨hvar, hgone⟩
    · exact .inl (valueAt_congr hspares.parameter heq)
    · exact .inr ⟨hvar, valueAt_unbind hspares.parameter hgone⟩
  · intro hfree
    refine valueAt_congr hspares.parameter ?_
    rcases hspares.lookup with heq | ⟨hvar, hgone⟩
    · exact heq
    · exact hgone.trans (hfree.resolve_left fun hnot => hnot hvar).symm
  · intro hempty
    obtain ⟨entries, hpasses, ⟨-, rfl⟩ | ⟨hne, -⟩⟩ := Loop.run_render h
    · rfl
    · exact absurd (Except.ok.inj (hpasses.symm.trans hempty)) hne
  · intro hnonempty hvar
    obtain ⟨entries, hpasses, ⟨rfl, -⟩ | ⟨-, texts, mid, -, hbindings, -⟩⟩ := Loop.run_render h
    · exact absurd hpasses hnonempty
    · refine valueAt_unbind hspares.parameter ?_
      rw [hbindings, Loop.lookup_unbindVars, if_pos hvar]

def idsOfGroups : Loop := ⟨"groups", some "x", some "i", "(", ")", " OR ", false⟩

def idsOfGroup : Fragment :=
  .sequence [.text "id IN", .foreach ⟨"x.ids", some "x", none, "(", ")", ", ", false⟩ (.text "#\x7bx\x7d")]

def ownedGroups : Context :=
  (Context.start (.ofPairs [("groups", .list [.ofPairs [("ids", .list [.int 1, .int 2])],
    .ofPairs [("ids", .list [])]])]) none).bind "x" (.ofPairs [("name", .text "me")])

theorem run_ownedGroups : ∃ b d,
    (Fragment.foreach idsOfGroups idsOfGroup).render.run ownedGroups = (.ok b, d) :=
  exists_run_of_toBool (by decide +kernel)

theorem not_bind_mem_idsOfGroup (name : String) (value : Test) :
    .bind name value ∉ idsOfGroup.nodes := by
  simp [idsOfGroup, nodes, nodes.nodesAll]

/-- The parameter, and the index that was not bound before, mean the same before and after. -/
theorem valueAt_after_idsOfGroups :
    (∀ name value, .bind name value ∉ idsOfGroup.nodes) ∧ ∃ b d,
      (Fragment.foreach idsOfGroups idsOfGroup).render.run ownedGroups = (.ok b, d) ∧
      ¬ Loop.isGenerated "groups.1".toList ∧ ¬ Loop.isGenerated "i".toList ∧
      d.valueAt "groups.1" = ownedGroups.valueAt "groups.1" ∧
      d.valueAt "i" = ownedGroups.valueAt "i" := by
  obtain ⟨b, d, hrun⟩ := run_ownedGroups
  have hgroups : ¬ Loop.isGenerated "groups.1".toList := by decide
  have hindex : ¬ Loop.isGenerated "i".toList := by decide
  have hbind := not_bind_mem_idsOfGroup
  refine ⟨hbind, b, d, hrun, hgroups, hindex, ?_, ?_⟩
  · exact (valueAt_after_foreach hbind hrun hgroups).2.1 (.inl (by decide))
  · exact (valueAt_after_foreach hbind hrun hindex).2.1 (.inr (by decide +kernel))

/-- What was bound under the name of a loop variable is not bound any more after the loop. -/
theorem valueAt_lost_idsOfGroups :
    (∀ name value, .bind name value ∉ idsOfGroup.nodes) ∧
      ¬ Loop.isGenerated "x.name".toList ∧ ∃ b d,
        (Fragment.foreach idsOfGroups idsOfGroup).render.run ownedGroups = (.ok b, d) ∧
        ownedGroups.valueAt "x.name" = .text "me" ∧ d.valueAt "x.name" = .null := by
  obtain ⟨b, d, hrun⟩ := run_ownedGroups
  refine ⟨not_bind_mem_idsOfGroup, by decide, b, d, hrun, by decide +kernel, ?_⟩
  have hlost : ((Fragment.foreach idsOfGroups idsOfGroup).render.run
      ownedGroups).2.valueAt "x.name" = .null := by decide +kernel
  rwa [hrun] at hlost

end Fragment
end SqlMapper
