import SqlMapper.Proofs.Sql.Literals
import SqlMapper.Proofs.Sql.Unbinding

/-!
What placeholders of bound names stand for. A render writes the names only and the values are looked
up when it is over, so a name stands for the value that it was bound to last.
-/

namespace SqlMapper

open Text Placeholder

def Value.follow (v : Value) (path : String) : Value :=
  match after? '.' path.toList with
  | none => v
  | some rest => (v.lookup? (.ofList rest)).getD .null

theorem resolve_of_lookup {bindings : Entries Value} {path : String} {v : Value}
    (h : bindings.lookup (firstSegment path) = some v) (parameter : Value) :
    resolve bindings parameter path = v.follow path := by
  unfold firstSegment at h
  unfold resolve Value.follow
  dsimp only
  rw [h]
  cases after? '.' path.toList with
  | none => rfl
  | some rest => rfl

namespace Event

def boundTo? (name : String) : Event → Option Value
  | bound name' v => if name' = name then some v else none
  | token _ _ => none

def latest? (name : String) (events : List Event) : Option Value :=
  (events.filterMap (boundTo? name)).getLast?

variable {name : String}

theorem latest?_append (name : String) (events events' : List Event) :
    latest? name (events ++ events') = (latest? name events').or (latest? name events) := by
  rw [latest?, List.filterMap_append, List.getLast?_append]
  rfl

theorem latest?_within (name : String) (frame : Frame) (events : List Event) :
    latest? name (events.map (reading.within frame)) = latest? name events := by
  have hstays (e : Event) : boundTo? name (reading.within frame e) = boundTo? name e := by
    cases e <;> rfl
  rw [latest?, List.filterMap_map, latest?]
  exact congrArg (fun g => (events.filterMap g).getLast?) (funext hstays)

theorem latest?_ofText (name s : String) : latest? name (reading.ofText s) = none := by
  dsimp only [reading]
  rw [latest?, List.filterMap_map, List.getLast?_eq_none_iff, List.filterMap_eq_nil_iff]
  exact fun t _ => rfl

theorem latest?_token_cons (name : String) (t : Token) (frames : List Frame) (events : List Event) :
    latest? name (token t frames :: events) = latest? name events := rfl

theorem bound_mem_of_latest? {events : List Event} {v : Value} (h : latest? name events = some v) :
    bound name v ∈ events := by
  obtain ⟨e, he, hbound⟩ := List.mem_filterMap.mp (List.mem_of_getLast? h)
  cases e with
  | token t frames => exact nomatch hbound
  | bound name' v' =>
    simp only [boundTo?] at hbound
    split at hbound
    · rename_i hname
      obtain rfl := Option.some.inj hbound
      exact hname ▸ he
    · exact nomatch hbound

/-- The value that a name is bound to last is the one before a token, unless another one is bound
after it. -/
theorem latest?_around {pre post : List Event} {v : Value} (h : latest? name pre = some v) (t : Token)
    (frames : List Frame) : ∃ w, latest? name (pre ++ token t frames :: post) = some w ∧
      ((∀ w', bound name w' ∈ post → w' = v) → w = v) := by
  rw [latest?_append, latest?_token_cons, h]
  cases hpost : latest? name post with
  | none => exact ⟨v, rfl, fun _ => rfl⟩
  | some w => exact ⟨w, rfl, fun hall => hall w (bound_mem_of_latest? hpost)⟩

def IsAmong (vars : List String) : Event → Prop
  | token _ frames => ∀ frame ∈ frames, ∀ var ∈ frame.loop.vars, var ∈ vars
  | bound _ _ => True

theorem isAmong_within {vars : List String} {frame : Frame} (hframe : ∀ var ∈ frame.loop.vars, var ∈ vars)
    {e : Event} (h : e.IsAmong vars) : (reading.within frame e).IsAmong vars := by
  cases e with
  | token t frames =>
    refine List.forall_mem_append.mpr ⟨h, ?_⟩
    exact List.forall_mem_singleton.mpr hframe
  | bound name v => trivial

end Event

open Event

namespace Context

/-- Every name that is not one of the variables is bound afterwards as the events leave it, and the
loops around the tokens have no other variables. -/
structure Records (vars : List String) (c : Context) (events : List Event) (d : Context) : Prop where
  lookup : ∀ name, name ∉ vars →
    d.bindings.lookup name = (latest? name events).or (c.bindings.lookup name)
  among : ∀ e ∈ events, e.IsAmong vars

namespace Records

variable {vars : List String} {c d e : Context} {events events' : List Event}

theorem nil (vars : List String) (c : Context) : Records vars c [] c :=
  ⟨fun _ _ => rfl, nofun⟩

theorem append (h : Records vars c events d) (h' : Records vars d events' e) :
    Records vars c (events ++ events') e where
  lookup name hname := by
    rw [latest?_append, h'.lookup name hname, h.lookup name hname, Option.or_assoc]
  among := List.forall_mem_append.mpr ⟨h.among, h'.among⟩

/-- A path whose first segment is not one of the variables means afterwards what its first segment
is bound to last, or what it meant before. -/
theorem resolve_eq (h : Records vars c events d) {path : String} (hname : firstSegment path ∉ vars)
    (parameter : Value) : resolve d.bindings parameter path =
      ((latest? (firstSegment path) events).map (·.follow path)).getD
        (resolve c.bindings parameter path) := by
  have hlookup := h.lookup _ hname
  cases hlatest : latest? (firstSegment path) events with
  | none =>
    rw [hlatest, Option.none_or] at hlookup
    exact resolve_eq_of_lookup hlookup parameter
  | some v =>
    rw [hlatest, Option.some_or] at hlookup
    exact resolve_of_lookup hlookup parameter

end Records

end Context

def Shape.ofVars (vars : List String) : Shape Unit where
  text _ _ := True
  trim _ _ := True
  binding := True
  loop _ loop := ∀ var ∈ loop.vars, var ∈ vars
  inner _ _ := ()

namespace Event

open Context

variable {vars : List String}

theorem records_bind (name : String) (v : Value) (c : Context) :
    Records vars c [bound name v] (c.bind name v) := by
  refine ⟨fun name' _ => ?_, List.forall_mem_singleton.mpr trivial⟩
  by_cases hname : name = name'
  · simp [Context.bind, Entries.lookup_insert, latest?, boundTo?, hname]
  · simp [Context.bind, Entries.lookup_insert, latest?, boundTo?, hname, Ne.symm hname]

/-- Apart from the loop's own variables, a pass binds generated names only. -/
theorem records_bindVar {var : Option String} (hvar : ∀ x ∈ var, x ∈ vars) (n : Nat) (v : Value)
    (c : Context) : Records vars c (reading.ofVar var n v) (Loop.bindVar var n v c) := by
  cases var with
  | none => exact .nil vars c
  | some x =>
    have hown : Records vars c [] (c.bind x v) := by
      refine ⟨fun name hname => ?_, nofun⟩
      have hx : name ≠ x := fun h => hname (h ▸ hvar x rfl)
      simp [Context.bind, Entries.lookup_insert, latest?, hx]
    exact hown.append (records_bind (Loop.generated x n) v _)

def bindings (vars : List String) : BindingAccount reading (.ofVars vars) where
  Leaves := Records vars
  InLoop _ := Records vars
  nil := .nil vars
  append := .append
  text {_ t} _ c := by
    refine ⟨fun name _ => ?_, List.forall_mem_map.mpr fun t _ => nofun⟩
    rw [latest?_ofText]
    rfl
  binding _ c name v := records_bind name v c
  loopNil _ := .nil vars
  loopAppend := .append
  pass {_ loop index item c events d} hloop hbody := by
    have hvars : ∀ var ∈ loop.vars, var ∈ vars := hloop
    have hnumber : Records vars c [] { c with counter := c.counter + 1 } := ⟨fun _ _ => rfl, nofun⟩
    have hindex : ∀ x ∈ loop.index, x ∈ vars := fun x hx => hvars x (Loop.mem_vars.mpr (.inr hx))
    have hitem : ∀ x ∈ loop.item, x ∈ vars := fun x hx => hvars x (Loop.mem_vars.mpr (.inl hx))
    have hopened := (hnumber.append (records_bindVar hindex c.counter index _)).append
      (records_bindVar hitem c.counter item _)
    refine hopened.append ⟨fun name hname => ?_, ?_⟩
    · rw [latest?_within]
      exact hbody.lookup name hname
    · exact List.forall_mem_map.mpr fun e he => isAmong_within hvars (hbody.among e he)
  close {_ loop c events d} hloop h := by
    refine ⟨fun name hname => ?_, h.among⟩
    rw [Loop.lookup_unbindVars, if_neg fun hmem => hname (hloop name hmem)]
    exact h.lookup name hname

end Event

namespace Fragment

variable {vars : List String}

def UsesVars (vars : List String) (f : Fragment) : Prop :=
  ∀ loop ∈ f.loop?, ∀ var ∈ loop.vars, var ∈ vars

theorem hasShape_ofVars : (f : Fragment) → (∀ g ∈ f.nodes, g.UsesVars vars) →
    f.HasShape (.ofVars vars) ()
  | .text _, _ | .bind _ _, _ => trivial
  | .sequence children, h => all children (List.forall_mem_cons.mp h).2
  | .cond _ body, h => hasShape_ofVars body (List.forall_mem_cons.mp h).2
  | .choose whens none, h => first whens (List.forall_mem_cons.mp h).2
  | .choose whens (some otherwise), h => by
    obtain ⟨hwhens, hotherwise⟩ := List.forall_mem_append.mp (List.forall_mem_cons.mp h).2
    exact ⟨first whens hwhens, hasShape_ofVars otherwise hotherwise⟩
  | .trim _ body, h => ⟨trivial, hasShape_ofVars body (List.forall_mem_cons.mp h).2⟩
  | .foreach loop body, h => by
    obtain ⟨hloop, hbody⟩ := List.forall_mem_cons.mp h
    exact ⟨hloop loop rfl, hasShape_ofVars body hbody⟩
where
  all : (fs : List Fragment) → (∀ g ∈ nodes.nodesAll fs, g.UsesVars vars) →
      HasShape.all (.ofVars vars) () fs
    | [], _ => trivial
    | f :: fs, h => by
      obtain ⟨hhead, htail⟩ := List.forall_mem_append.mp h
      exact ⟨hasShape_ofVars f hhead, all fs htail⟩
  first : (fs : List (Test × Fragment)) → (∀ g ∈ nodes.nodesFirst fs, g.UsesVars vars) →
      HasShape.first (.ofVars vars) () fs
    | [], _ => trivial
    | (_, f) :: fs, h => by
      obtain ⟨hhead, htail⟩ := List.forall_mem_append.mp h
      exact ⟨hasShape_ofVars f hhead, first fs htail⟩

theorem usesVars_loopVars (f : Fragment) : ∀ g ∈ f.nodes, g.UsesVars f.loopVars := by
  intro g hg loop hloop var hvar
  exact List.mem_flatMap.mpr ⟨loop, List.mem_filterMap.mpr ⟨g, hg, hloop⟩, hvar⟩

end Fragment

section Free

variable {vars : List String} {content : List Char}

/-- A name that is no variable and not below one is not renamed. -/
theorem Loop.renameContent_of_free (n : Nat)
    (h : ∀ var ∈ vars, below? var.toList (property content) = none) :
    renameContent vars n content = content := by
  have hnone : (vars.findSome? fun var => (below? var.toList (property content)).map fun rest =>
      (generated var n).toList ++ rest ++ options content) = none := by
    refine List.findSome?_eq_none_iff.mpr fun var hvar => ?_
    rw [h var hvar, Option.map_none]
  rw [renameContent, hnone, Option.getD_none]

theorem Placeholder.Token.content_scanned_of_free {t : Token} {frames : List Frame}
    (h : ∀ frame ∈ frames, ∀ var ∈ frame.loop.vars,
      Loop.below? var.toList (property t.content) = none) :
    (t.scanned frames).content = t.content := by
  induction frames generalizing t with
  | nil => rfl
  | cons frame frames ih =>
    obtain ⟨hframe, hframes⟩ := List.forall_mem_cons.mp h
    have hcontent : (t.rescanned frame.loop.vars frame.number).content = t.content := by
      obtain ⟨_ | k, content⟩ := t
      · exact Loop.renameContent_of_free frame.number hframe
      · rfl
    rw [scanned, List.foldl_cons, ← scanned, ih (by rwa [hcontent]), hcontent]

/-- A placeholder that no loop around it renames names in the end what it names in its text. -/
theorem Event.property?_of_free {t : Token} {frames : List Frame} (hslashes : t.slashes ≤ frames.length)
    (h : ∀ frame ∈ frames, ∀ var ∈ frame.loop.vars,
      Loop.below? var.toList (property t.content) = none) :
    (token t frames).property? = some (.ofList (property t.content)) := by
  have hzero : (t.scanned frames).slashes = 0 := by
    have hscanned := t.slashes_scanned frames
    omega
  rw [property?, token?, Option.bind_some, Token.property?_of_zero hzero,
    Token.content_scanned_of_free h]

/-- A path that is not at or below any variable does not begin with one. -/
theorem head_notMem_of_free (h : ∀ var ∈ vars, Loop.below? var.toList (property content) = none) :
    head content ∉ vars := by
  intro hmem
  have hbelow : Loop.below? (head content).toList (property content) =
      some ((property content).dropWhile (· ≠ '.')) := by
    rw [Loop.below?_eq_some, head, String.toList_ofList]
    exact ⟨List.takeWhile_append_dropWhile.symm, head?_dropWhile '.' _⟩
  exact absurd ((h _ hmem).symm.trans hbelow).symm (Option.some_ne_none _)

end Free

namespace Fragment

/-- A statement that is bound comes from a render that went well. -/
theorem exists_run_of_bound {f : Fragment} {parameter : Value} {databaseId : Option String}
    {b : BoundSql} (h : (Source.rendered f databaseId).bound parameter = .ok b) :
    ∃ took ctx, f.render.run (Context.start parameter databaseId) = (.ok took, ctx) ∧
      b.parameter = parameter ∧ b.additional = ctx.bindings := by
  rw [Source.bound] at h
  rcases hrun : f.render.run (Context.start parameter databaseId) with ⟨e | took, ctx⟩
  · simp [hrun] at h
  · simp only [hrun] at h
    cases htemplate : template ctx.sql with
    | error e => simp [htemplate, Except.map] at h
    | ok t =>
      simp only [htemplate] at h
      obtain rfl := Except.ok.inj h
      exact ⟨took, ctx, rfl, rfl, rfl⟩

/-- Placeholders of bound names read what is bound last. In any fragment, a question mark whose path
begins with a name that no loop uses as a variable takes its value from the last value that the
render binds the name to, or from what the name stands for before the render if it is not bound at
all. For a placeholder of a complete fragment that is rendered when the name is already bound, this
is the value in force at that moment unless the name is bound to another one later, be it further on
in the text or in the next pass of a loop around. -/
theorem bound_values_latest {f : Fragment} {parameter : Value} {databaseId : Option String}
    {b : BoundSql} (h : (Source.rendered f databaseId).bound parameter = .ok b) :
    ∃ events, f.events? parameter databaseId = some events ∧
      (∀ (i : Nat) path, b.properties[i]? = some path → firstSegment path ∉ f.loopVars →
        b.values[i]? = some (((latest? (firstSegment path) events).map (·.follow path)).getD
          (resolve (Context.start parameter databaseId).bindings parameter path))) ∧
      (f.Complete .outside → ∀ pre t frames post, events = pre ++ .token t frames :: post →
        t.slashes ≤ frames.length →
        (∀ var ∈ f.loopVars, Loop.below? var.toList (property t.content) = none) →
        ∀ v, latest? (head t.content) pre = some v →
          ∃ w, latest? (head t.content) events = some w ∧
            ((∀ w', .bound (head t.content) w' ∈ post → w' = v) → w = v) ∧
            let path := String.ofList (property t.content)
            let i := (pre.filterMap Event.property?).length
            b.properties[i]? = some path ∧ b.values[i]? = some (w.follow path)) := by
  obtain ⟨took, ctx, hrun, hparameter, hadditional⟩ := exists_run_of_bound h
  obtain ⟨events, hread, -⟩ := run_events hrun
  have hrecords : Context.Records f.loopVars _ events ctx.bare :=
    (bindings f.loopVars).run_read f () (hasShape_ofVars f (usesVars_loopVars f)) _ _ _ hread
  have hvalues (i : Nat) (path : String) (hpath : b.properties[i]? = some path)
      (hname : firstSegment path ∉ f.loopVars) :
      b.values[i]? = some (((latest? (firstSegment path) events).map (·.follow path)).getD
        (resolve (Context.start parameter databaseId).bindings parameter path)) := by
    rw [BoundSql.values, List.getElem?_map, hpath, Option.map_some, hparameter, hadditional]
    exact congrArg some (hrecords.resolve_eq hname parameter)
  refine ⟨events, reading?_eq_some hread, hvalues, ?_⟩
  rintro hf pre t frames post rfl hslashes hfree v hv
  obtain ⟨w, hw, hsame⟩ : ∃ w, latest? (head t.content) (pre ++ .token t frames :: post) = some w ∧
      ((∀ w', .bound (head t.content) w' ∈ post → w' = v) → w = v) := latest?_around hv t frames
  refine ⟨w, hw, hsame, ?_⟩
  have hproperty : (Event.token t frames).property? = some (.ofList (property t.content)) := by
    have hamong : (Event.token t frames).IsAmong f.loopVars := hrecords.among _ (by simp)
    exact property?_of_free hslashes fun frame hframe var hvar =>
      hfree var (hamong frame hframe var hvar)
  -- The properties are those of the placeholders, in their order.
  obtain ⟨events', bits, hread', -, -, hbound⟩ := exists_bits_of_complete hf hrun
  obtain rfl : pre ++ .token t frames :: post = events' :=
    (Render.ok_inj (hread.symm.trans hread')).1
  obtain rfl := Except.ok.inj (h.symm.trans hbound)
  have hplace : ((pre ++ .token t frames :: post).filterMap Event.property?)[
      (pre.filterMap Event.property?).length]? = some (.ofList (property t.content)) := by
    rw [List.filterMap_append, List.filterMap_cons_some hproperty, List.getElem?_append_right le_rfl,
      Nat.sub_self, List.getElem?_cons_zero]
  have hsegment : firstSegment (.ofList (property t.content)) = head t.content := by
    rw [firstSegment, String.toList_ofList, head]
  have hvalue := hvalues _ _ hplace (hsegment ▸ head_notMem_of_free hfree)
  rw [hsegment, hw] at hvalue
  exact ⟨hplace, hvalue⟩

def limitedIds : Fragment :=
  .sequence [.bind "low" ⟨"min", .path "min"⟩, .text "n > #\x7blow\x7d AND id",
    .foreach idsLoop (.text "#\x7bid\x7d")]

def limitAndIds : Value :=
  .ofPairs [("ids", .list [.int 4, .int 5]), ("min", .int 3)]

/-- The limit is bound once, so that its placeholder reads the value in force. -/
theorem bound_values_limitedIds : limitedIds.Complete .outside ∧ ∃ b post,
    (Source.rendered limitedIds none).bound limitAndIds = .ok b ∧
    limitedIds.events? limitAndIds none =
      some (.bound "low" (.int 3) :: .token ⟨0, "low".toList⟩ [] :: post) ∧
    b.sql = "n > ? AND id IN (?, ?)" ∧ b.properties[0]? = some "low" ∧
    b.values[0]? = some (.int 3) := by
  have hcomplete : limitedIds.Complete .outside :=
    ⟨trivial, complete_text (by decide +kernel), ⟨Loop.quiet_of_plain (by decide) (by decide)
      (by decide), complete_text (by decide +kernel)⟩, trivial⟩
  have hsql : ((Source.rendered limitedIds none).bound limitAndIds).toOption.map BoundSql.sql =
      some "n > ? AND id IN (?, ?)" := by decide +kernel
  have hevents : limitedIds.events? limitAndIds none = some [.bound "low" (.int 3),
      .token ⟨0, "low".toList⟩ [], .bound "__frch_id_0" (.int 4),
      .token ⟨0, "id".toList⟩ [⟨idsLoop, 0, .int 0, .int 4⟩], .bound "__frch_id_1" (.int 5),
      .token ⟨0, "id".toList⟩ [⟨idsLoop, 1, .int 1, .int 5⟩]] := by decide +kernel
  obtain ⟨b, hbound, hsql⟩ := exists_ok_of_toOption hsql
  obtain ⟨events, hsome, -, hplaces⟩ := bound_values_latest hbound
  obtain rfl := Option.some.inj (hsome.symm.trans hevents)
  obtain ⟨w, -, hsame, hproperty, hvalue⟩ :=
    hplaces hcomplete [.bound "low" (.int 3)] ⟨0, "low".toList⟩ [] _ rfl le_rfl
      (by decide +kernel) (.int 3) (by decide +kernel)
  have hname : head ['l', 'o', 'w'] = "low" := by decide +kernel
  obtain rfl := hsame fun w' hw' => by simp [hname] at hw'
  exact ⟨hcomplete, b, _, hbound, hevents, hsql, hproperty, hvalue⟩

/-- Ids, each read through a name that is bound in the pass. -/
def copiedIds : Fragment :=
  .foreach idsLoop (.sequence [.bind "copy" ⟨"id", .path "id"⟩, .text "#\x7bcopy\x7d"])

/-- The placeholder of the first pass reads what the second pass binds. -/
theorem bound_values_copiedIds : copiedIds.Complete .outside ∧ ∃ b,
    (Source.rendered copiedIds none).bound twoIds = .ok b ∧
    copiedIds.events? twoIds none = some [.bound "__frch_id_0" (.int 4), .bound "copy" (.int 4),
      .token ⟨0, "copy".toList⟩ [⟨idsLoop, 0, .int 0, .int 4⟩], .bound "__frch_id_1" (.int 5),
      .bound "copy" (.int 5), .token ⟨0, "copy".toList⟩ [⟨idsLoop, 1, .int 1, .int 5⟩]] ∧
    b.properties = ["copy", "copy"] ∧ b.values = [.int 5, .int 5] := by
  have hcomplete : copiedIds.Complete .outside :=
    ⟨Loop.quiet_of_plain (by decide) (by decide) (by decide), trivial,
      complete_text (by decide +kernel), trivial⟩
  have hevents : copiedIds.events? twoIds none = some [.bound "__frch_id_0" (.int 4),
      .bound "copy" (.int 4), .token ⟨0, "copy".toList⟩ [⟨idsLoop, 0, .int 0, .int 4⟩],
      .bound "__frch_id_1" (.int 5), .bound "copy" (.int 5),
      .token ⟨0, "copy".toList⟩ [⟨idsLoop, 1, .int 1, .int 5⟩]] := by decide +kernel
  have hbound : ((Source.rendered copiedIds none).bound twoIds).toOption.map
      (fun b => (b.properties, b.values)) = some (["copy", "copy"], [.int 5, .int 5]) := by
    decide +kernel
  obtain ⟨b, hok, hparts⟩ := exists_ok_of_toOption hbound
  obtain ⟨hproperties, hvalues⟩ := Prod.mk.inj hparts
  exact ⟨hcomplete, b, hok, hevents, hproperties, hvalues⟩

end Fragment

end SqlMapper
