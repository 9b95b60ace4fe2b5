import SqlMapper.Proofs.Sql.Rendering

/-!
Readings of a fragment: what its texts, the names it binds and the passes of its loops come to, in
the order in which a render comes to them. One evaluator collects any of them, and writes nothing.
-/

namespace SqlMapper

open Text

structure Frame where
  loop : Loop
  number : Nat
  index : Value
  item : Value
  deriving DecidableEq

structure Reading (α : Type) where
  ofText : String → List α
  ofBinding : String → Value → List α
  within : Frame → α → α

namespace Reading

variable {α : Type} (r : Reading α)

def ofVar (var : Option String) (n : Nat) (v : Value) : List α :=
  (var.map fun name => r.ofBinding (Loop.generated name n) v).getD []

/-- A pass binds its variables under generated names before anything else. -/
def ofPass (frame : Frame) (inner : List α) : List α :=
  r.ofVar frame.loop.index frame.number frame.index ++
    r.ofVar frame.loop.item frame.number frame.item ++ inner.map (r.within frame)

end Reading

namespace Loop

variable {α : Type} (loop : Loop) (r : Reading α)

def opened (index item : Value) (c : Context) : Context :=
  bindVar loop.item c.counter item
    (bindVar loop.index c.counter index { c with counter := c.counter + 1 })

def readPass (body : Render (List α)) (index item : Value) : Render (List α) := do
  let n ← Render.nextNumber
  modify fun ctx => bindVar loop.item n item (bindVar loop.index n index ctx)
  let inner ← body
  return r.ofPass ⟨loop, n, index, item⟩ inner

def readPasses (body : Render (List α)) : List (Value × Value) → Render (List α)
  | [] => return []
  | (index, item) :: rest => do
    let first ← loop.readPass r body index item
    let others ← readPasses body rest
    return first ++ others

def read (body : Render (List α)) : Render (List α) := do
  let entries ← Render.ofContext fun ctx => loop.passes (ctx.valueAt loop.collection)
  if entries.isEmpty then return []
  let found ← loop.readPasses r body entries
  modify loop.unbindVars
  return found

end Loop

namespace Fragment

variable {α : Type} (r : Reading α)

def read : Fragment → Render (List α)
  | .text s => return r.ofText s
  | .sequence children => readAll children
  | .cond test body => do
    if ← holds test then read body
    else return []
  | .choose whens none => do
    let found ← readFirst whens
    return found.getD []
  | .choose whens (some otherwise) => do
    match ← readFirst whens with
    | some found => return found
    | none => read otherwise
  | .trim _ body => read body
  | .bind name value => do
    let v ← Render.ofContext fun ctx => value.value ctx.valueAt
    modify (Context.bind name v)
    return r.ofBinding name v
  | .foreach loop body => loop.read r (read body)
where
  readAll : List Fragment → Render (List α)
    | [] => return []
    | f :: fs => do
      let first ← read f
      let others ← readAll fs
      return first ++ others
  readFirst : List (Test × Fragment) → Render (Option (List α))
    | [] => return none
    | (test, f) :: fs => do
      if ← holds test then
        let found ← read f
        return some found
      else readFirst fs

def reading? (f : Fragment) (parameter : Value) (databaseId : Option String) : Option (List α) :=
  match (f.read r).run (Context.start parameter databaseId) with
  | (.ok found, _) => some found
  | (.error _, _) => none

theorem reading?_eq_some {r : Reading α} {f : Fragment} {parameter : Value}
    {databaseId : Option String} {found : List α} {d : Context}
    (h : (f.read r).run (Context.start parameter databaseId) = (.ok found, d)) :
    f.reading? r parameter databaseId = some found := by
  rw [reading?, h]

end Fragment

/-- What the parts of a fragment are to be like. The body of a loop may stand at another place than
the loop itself. -/
structure Shape (ι : Type) where
  text : ι → String → Prop
  trim : ι → Trim → Prop
  binding : Prop
  loop : ι → Loop → Prop
  inner : Loop → ι → ι

def Fragment.HasShape {ι : Type} (s : Shape ι) (i : ι) : Fragment → Prop
  | .text t => s.text i t
  | .sequence children => all i children
  | .cond _ body => HasShape s i body
  | .choose whens none => first i whens
  | .choose whens (some otherwise) => first i whens ∧ HasShape s i otherwise
  | .trim rule body => s.trim i rule ∧ HasShape s i body
  | .bind _ _ => s.binding
  | .foreach loop body => s.loop i loop ∧ HasShape s (s.inner loop i) body
where
  all (i : ι) : List Fragment → Prop
    | [] => True
    | f :: fs => HasShape s i f ∧ all i fs
  first (i : ι) : List (Test × Fragment) → Prop
    | [] => True
    | (_, f) :: fs => HasShape s i f ∧ first i fs

/-! What is written. -/

/-- How the texts that a render writes stand for what is read off it, in fragments of a shape: those
of a whole fragment, that of one pass of a loop, and those of several passes. -/
structure TextAccount {α ι : Type} (r : Reading α) (s : Shape ι) where
  StandIn : ι → List String → List α → Prop
  InPass : ι → Loop → String → List α → Prop
  InPasses : ι → Loop → List String → List α → Prop
  nil : ∀ i, StandIn i [] []
  append : ∀ {i texts texts' found found'}, StandIn i texts found → StandIn i texts' found' →
    StandIn i (texts ++ texts') (found ++ found')
  text : ∀ {i t}, s.text i t → StandIn i (visible t) (r.ofText t)
  trim : ∀ {i rule texts found}, s.trim i rule → StandIn i texts found →
    StandIn i (visible (rule.apply (Context.joined texts))) found
  binding : s.binding → ∀ i name v, StandIn i [] (r.ofBinding name v)
  pass : ∀ {i loop n index item texts text found}, s.loop i loop →
    StandIn (s.inner loop i) texts found → loop.rename n (Context.joined texts) = .ok text →
      InPass i loop text (r.ofPass ⟨loop, n, index, item⟩ found)
  passesNil : ∀ i loop, InPasses i loop [] []
  passesCons : ∀ {i loop text found parts found'}, s.loop i loop → InPass i loop text found →
    InPasses i loop parts found' →
      InPasses i loop (if isBlankText text then parts else text :: parts) (found ++ found')
  around : ∀ {i loop parts found}, s.loop i loop → InPasses i loop parts found →
    StandIn i (visible (loop.opening ++ loop.separator.intercalate parts ++ loop.closing)) found

namespace Loop

open Render

variable {loop : Loop}

theorem shows_bindVars (loop : Loop) (n : Nat) (index item : Value) :
    Shows (fun _ texts _ => texts = [])
      (modify fun c => bindVar loop.item n item (bindVar loop.index n index c))
      (modify fun c => bindVar loop.item n item (bindVar loop.index n index c)) := by
  refine shows_modify fun c w e => ?_
  cases loop.item <;> cases loop.index <;> rfl

theorem shows_unbindVars (loop : Loop) :
    Shows (fun _ texts _ => texts = []) (modify loop.unbindVars) (modify loop.unbindVars) := by
  refine shows_modify fun c w e => ?_
  unfold unbindVars
  induction loop.vars generalizing c with
  | nil => rfl
  | cons name names ih => exact ih (c.unbind name)

end Loop

namespace TextAccount

open Render

variable {α ι : Type} {r : Reading α} {s : Shape ι} (A : TextAccount r s) {i : ι} {loop : Loop}
  {body : Render Bool} {found : Render (List α)} {P : Prop}

theorem shows_readPass (hloop : P → s.loop i loop)
    (h : Shows (fun _ texts found => P → A.StandIn (s.inner loop i) texts found) body found)
    (index item : Value) :
    Shows (fun text texts found => texts = [] ∧ (P → A.InPass i loop text found))
      (loop.pass body index item) (loop.readPass r found index item) := by
  refine shows_nextNumber.bind ?_
  rintro n _ _ ⟨rfl, rfl⟩
  refine (Loop.shows_bindVars loop n index item).bind ?_
  rintro _ _ _ rfl
  refine h.isolated.bind ?_
  rintro ⟨took, text⟩ _ inner ⟨rfl, texts, rfl, hin⟩
  -- Only the renaming is left, which looks at no context.
  intro c text c' hx
  obtain ⟨htext, rfl⟩ := Prod.mk.inj hx
  exact ⟨_, [], rfl, (List.append_nil _).symm, rfl, rfl, fun hP => A.pass (hloop hP) (hin hP) htext⟩

theorem shows_readPasses (hloop : P → s.loop i loop)
    (h : Shows (fun _ texts found => P → A.StandIn (s.inner loop i) texts found) body found)
    (entries : List (Value × Value)) :
    Shows (fun parts texts found => texts = [] ∧ (P → A.InPasses i loop parts found))
      (loop.texts body entries) (loop.readPasses r found entries) := by
  induction entries with
  | nil => exact shows_pure ⟨rfl, fun _ => A.passesNil i loop⟩
  | cons entry entries ih =>
    refine (A.shows_readPass hloop h entry.1 entry.2).bind ?_
    rintro text _ first ⟨rfl, htext⟩
    refine ih.bind ?_
    rintro more _ others ⟨rfl, hmore⟩
    exact shows_pure ⟨rfl, fun hP => A.passesCons (hloop hP) (htext hP) (hmore hP)⟩

/-- A loop shows what is read of it if every pass of its body does. -/
theorem shows_readLoop (hloop : P → s.loop i loop)
    (h : Shows (fun _ texts found => P → A.StandIn (s.inner loop i) texts found) body found) :
    Shows (fun _ texts found => P → A.StandIn i texts found) (loop.render body)
      (loop.read r found) := by
  refine (shows_ofContext fun c => rfl).bind ?_
  rintro entries _ _ ⟨rfl, rfl⟩
  split
  · exact shows_pure fun _ => A.nil i
  · refine (A.shows_readPasses hloop h entries).bind ?_
    rintro parts _ inner ⟨rfl, hparts⟩
    refine (Loop.shows_unbindVars loop).bind ?_
    rintro _ _ _ rfl
    refine (shows_append _).bind_pure ?_
    rintro _ _ rfl
    exact shows_pure fun hP => by simpa using A.around (hloop hP) (hparts hP)

theorem shows_holds (test : Test) :
    Shows (fun held texts held' => texts = [] ∧ held = held') (Fragment.holds test)
      (Fragment.holds test) :=
  shows_ofContext fun _ => rfl

/-- In a fragment of the shape, the texts that a render writes stand for what is read off it. -/
theorem shows_read : (f : Fragment) → (i : ι) →
    Shows (fun _ texts found => f.HasShape s i → A.StandIn i texts found) f.render (f.read r)
  | .text t, i => by
    refine (shows_append t).bind_pure ?_
    rintro _ _ rfl
    exact shows_pure fun h => by simpa using A.text h
  | .sequence children, i => all children i
  | .cond test body, i => by
    refine (shows_holds test).bind ?_
    rintro held _ _ ⟨rfl, rfl⟩
    cases held with
    | true => exact (shows_read body i).returning fun _ texts found hin => hin
    | false => exact shows_pure fun _ => A.nil i
  | .choose whens none, i => by
    rw [Fragment.render, ← bind_pure (Fragment.render.renderFirst whens)]
    exact (first whens i).bind fun took texts found? hin =>
      shows_pure fun h => by simpa using hin.2 h
  | .choose whens (some otherwise), i => by
    refine (first whens i).bind ?_
    rintro took texts found? ⟨rfl, hin⟩
    cases found? with
    | some found => exact shows_pure fun h => by simpa using hin h.1
    | none =>
      exact (shows_read otherwise i).returning fun _ texts' found hin' h =>
        A.append (hin h.1) (hin' h.2)
  | .trim rule body, i => by
    rw [Fragment.read, ← bind_pure (Fragment.read r body)]
    refine (shows_read body i).isolated.bind ?_
    rintro ⟨took, part⟩ _ found ⟨rfl, texts, rfl, hin⟩
    refine (shows_append _).bind_pure ?_
    rintro _ _ rfl
    exact shows_pure fun h => by simpa using A.trim h.1 (hin h.2)
  | .bind name value, i => by
    refine (shows_ofContext fun _ => rfl).bind ?_
    rintro v _ _ ⟨rfl, rfl⟩
    refine (shows_modify fun _ _ _ => rfl).bind ?_
    rintro _ _ _ rfl
    exact shows_pure fun h => A.binding h i name v
  | .foreach loop body, i =>
    A.shows_readLoop (fun h : (Fragment.foreach loop body).HasShape s i => h.1)
      ((shows_read body (s.inner loop i)).imp fun _ _ _ hin h => hin h.2)
where
  all : (fs : List Fragment) → (i : ι) →
      Shows (fun _ texts found => Fragment.HasShape.all s i fs → A.StandIn i texts found)
        (Fragment.render.renderAll fs) (Fragment.read.readAll r fs)
    | [], i => shows_pure fun _ => A.nil i
    | f :: fs, i => by
      refine (shows_read f i).bind fun _ texts found hin => ?_
      refine (all fs i).bind fun _ texts' found' hin' => shows_pure fun h => ?_
      simpa using A.append (hin h.1) (hin' h.2)
  first : (fs : List (Test × Fragment)) → (i : ι) →
      Shows (fun took texts found? => took = found?.isSome ∧
          (Fragment.HasShape.first s i fs → A.StandIn i texts (found?.getD [])))
        (Fragment.render.renderFirst fs) (Fragment.read.readFirst r fs)
    | [], i => shows_pure ⟨rfl, fun _ => A.nil i⟩
    | (test, f) :: fs, i => by
      refine (shows_holds test).bind ?_
      rintro held _ _ ⟨rfl, rfl⟩
      cases held with
      | true =>
        exact (shows_read f i).bind fun _ texts found hin =>
          shows_pure ⟨rfl, fun h => by simpa using hin h.1⟩
      | false =>
        exact (first fs i).imp fun took texts found? hin => ⟨hin.1, fun h => hin.2 h.2⟩

/-- A render that goes well can be read, with the same names bound in the end, and in a fragment of
the shape the statement is put together of texts that stand for what is read. -/
theorem run_read {f : Fragment} {parameter : Value} {databaseId : Option String} {took : Bool}
    {ctx : Context} (h : f.render.run (Context.start parameter databaseId) = (.ok took, ctx))
    (i : ι) :
    ∃ found texts, (f.read r).run (Context.start parameter databaseId) = (.ok found, ctx.bare) ∧
      ctx.sql = Text.trim (Context.joined texts) ∧ (f.HasShape s i → A.StandIn i texts found) := by
  obtain ⟨found, texts, hread, hwritten, henclosing, hin⟩ := A.shows_read f i h
  refine ⟨found, texts, hread, ?_, hin⟩
  rw [Context.sql, henclosing, hwritten]
  rfl

end TextAccount

/-! What is bound. -/

/-- How what is read off a render is left behind in the context, in fragments of a shape: by a whole
fragment, and by passes of a loop whose variables are still bound. -/
structure BindingAccount {α ι : Type} (r : Reading α) (s : Shape ι) where
  Leaves : Context → List α → Context → Prop
  InLoop : Loop → Context → List α → Context → Prop
  nil : ∀ c, Leaves c [] c
  append : ∀ {c d e found found'}, Leaves c found d → Leaves d found' e →
    Leaves c (found ++ found') e
  text : ∀ {i t}, s.text i t → ∀ c, Leaves c (r.ofText t) c
  binding : s.binding → ∀ c name v, Leaves c (r.ofBinding name v) (c.bind name v)
  loopNil : ∀ loop c, InLoop loop c [] c
  loopAppend : ∀ {loop c d e found found'}, InLoop loop c found d → InLoop loop d found' e →
    InLoop loop c (found ++ found') e
  pass : ∀ {i loop index item c found d}, s.loop i loop →
    Leaves (loop.opened index item c) found d →
      InLoop loop c (r.ofPass ⟨loop, c.counter, index, item⟩ found) d
  close : ∀ {i loop c found d}, s.loop i loop → InLoop loop c found d →
    Leaves c found (loop.unbindVars d)

namespace BindingAccount

open Render

variable {α ι : Type} {r : Reading α} {s : Shape ι} (A : BindingAccount r s) {i : ι} {loop : Loop}
  {body : Render (List α)} {c d : Context} {found : List α}

theorem run_readPasses (hloop : s.loop i loop)
    (hbody : ∀ c found d, body.run c = (.ok found, d) → A.Leaves c found d)
    {entries : List (Value × Value)} (h : (loop.readPasses r body entries).run c = (.ok found, d)) :
    A.InLoop loop c found d := by
  induction entries generalizing c found with
  | nil =>
    obtain ⟨rfl, rfl⟩ := ok_inj h
    exact A.loopNil loop c
  | cons entry entries ih =>
    obtain ⟨first, mid, hfirst, hrest⟩ := run_bind_eq_ok.mp h
    obtain ⟨others, mid', hothers, hlast⟩ := run_bind_eq_ok.mp hrest
    obtain ⟨rfl, rfl⟩ := ok_inj hlast
    have hpass : A.InLoop loop c first mid := by
      obtain ⟨n, c₁, hn, hrest⟩ := run_bind_eq_ok.mp hfirst
      obtain ⟨rfl, rfl⟩ := ok_inj hn
      obtain ⟨_, c₂, hopen, hrest⟩ := run_bind_eq_ok.mp hrest
      obtain ⟨-, rfl⟩ := ok_inj hopen
      obtain ⟨inner, c₃, hinner, hlast⟩ := run_bind_eq_ok.mp hrest
      obtain ⟨rfl, rfl⟩ := ok_inj hlast
      exact A.pass hloop (hbody _ _ _ hinner)
    exact A.loopAppend hpass (ih hothers)

/-- A loop leaves behind what is read of it if every pass of its body does. -/
theorem run_readLoop (hloop : s.loop i loop)
    (hbody : ∀ c found d, body.run c = (.ok found, d) → A.Leaves c found d)
    (h : (loop.read r body).run c = (.ok found, d)) : A.Leaves c found d := by
  obtain ⟨entries, mid, hentries, hrest⟩ := run_bind_eq_ok.mp h
  obtain ⟨-, rfl⟩ := Prod.mk.inj hentries
  split at hrest
  · obtain ⟨rfl, rfl⟩ := ok_inj hrest
    exact A.nil c
  · obtain ⟨inner, mid, hinner, hrest⟩ := run_bind_eq_ok.mp hrest
    obtain ⟨_, after, hunbind, hlast⟩ := run_bind_eq_ok.mp hrest
    obtain ⟨-, rfl⟩ := ok_inj hunbind
    obtain ⟨rfl, rfl⟩ := ok_inj hlast
    exact A.close hloop (A.run_readPasses hloop hbody hinner)

theorem run_holds {test : Test} {held : Bool}
    (h : (Fragment.holds test).run c = (.ok held, d)) : d = c :=
  (Prod.mk.inj h).2.symm

/-- Whatever a fragment of the shape goes through, it leaves behind what is read off its render. -/
theorem run_read : (f : Fragment) → (i : ι) → f.HasShape s i → ∀ c found d,
    (f.read r).run c = (.ok found, d) → A.Leaves c found d
  | .text t, i, hf, c, found, d, h => by
    obtain ⟨rfl, rfl⟩ := ok_inj h
    exact A.text hf c
  | .sequence children, i, hf, c, found, d, h => all children i hf c found d h
  | .cond test body, i, hf, c, found, d, h => by
    obtain ⟨held, mid, htest, hrest⟩ := run_bind_eq_ok.mp h
    obtain rfl := run_holds htest
    cases held with
    | true => exact run_read body i hf _ found d hrest
    | false =>
      obtain ⟨rfl, rfl⟩ := ok_inj hrest
      exact A.nil _
  | .choose whens none, i, hf, c, found, d, h => by
    obtain ⟨found?, mid, hfirst, hrest⟩ := run_bind_eq_ok.mp h
    obtain ⟨rfl, rfl⟩ := ok_inj hrest
    exact first whens i hf c found? _ hfirst
  | .choose whens (some otherwise), i, hf, c, found, d, h => by
    obtain ⟨found?, mid, hfirst, hrest⟩ := run_bind_eq_ok.mp h
    have hleaves := first whens i hf.1 c found? mid hfirst
    cases found? with
    | some found =>
      obtain ⟨rfl, rfl⟩ := ok_inj hrest
      exact hleaves
    | none => exact A.append hleaves (run_read otherwise i hf.2 mid found d hrest)
  | .trim _ body, i, hf, c, found, d, h => run_read body i hf.2 c found d h
  | .bind name value, i, hf, c, found, d, h => by
    obtain ⟨v, mid, hvalue, hrest⟩ := run_bind_eq_ok.mp h
    obtain ⟨-, rfl⟩ := Prod.mk.inj hvalue
    obtain ⟨_, mid', hbind, hlast⟩ := run_bind_eq_ok.mp hrest
    obtain ⟨-, rfl⟩ := ok_inj hbind
    obtain ⟨rfl, rfl⟩ := ok_inj hlast
    exact A.binding hf _ name v
  | .foreach loop body, i, hf, _, _, _, h =>
    A.run_readLoop hf.1 (run_read body (s.inner loop i) hf.2) h
where
  all : (fs : List Fragment) → (i : ι) → Fragment.HasShape.all s i fs → ∀ c found d,
      (Fragment.read.readAll r fs).run c = (.ok found, d) → A.Leaves c found d
    | [], _, _, c, found, d, h => by
      obtain ⟨rfl, rfl⟩ := ok_inj h
      exact A.nil c
    | f :: fs, i, hf, c, found, d, h => by
      obtain ⟨first, mid, hfirst, hrest⟩ := run_bind_eq_ok.mp h
      obtain ⟨others, mid', hothers, hlast⟩ := run_bind_eq_ok.mp hrest
      obtain ⟨rfl, rfl⟩ := ok_inj hlast
      exact A.append (run_read f i hf.1 c first mid hfirst) (all fs i hf.2 mid others _ hothers)
  first : (fs : List (Test × Fragment)) → (i : ι) → Fragment.HasShape.first s i fs → ∀ c found? d,
      (Fragment.read.readFirst r fs).run c = (.ok found?, d) → A.Leaves c (found?.getD []) d
    | [], _, _, c, found?, d, h => by
      obtain ⟨rfl, rfl⟩ := ok_inj h
      exact A.nil c
    | (test, f) :: fs, i, hf, c, found?, d, h => by
      obtain ⟨held, mid, htest, hrest⟩ := run_bind_eq_ok.mp h
      obtain rfl := run_holds htest
      cases held with
      | true =>
        obtain ⟨found, mid', hfound, hlast⟩ := run_bind_eq_ok.mp hrest
        obtain ⟨rfl, rfl⟩ := ok_inj hlast
        exact run_read f i hf.1 _ found _ hfound
      | false => exact first fs i hf.2 _ found? d hrest

end BindingAccount
end SqlMapper
