import SqlMapper.Proofs.Sql.Keywords

/-!
What a render does to the open buffers, whether it goes well or fails: it closes every buffer that
it opens, and the innermost one only takes new texts at its end.
-/

namespace SqlMapper

open Text

namespace Context

variable {c d e : Context}

structure Extends (c d : Context) : Prop where
  enclosing : d.enclosing = c.enclosing
  written : ∃ added, d.written = c.written ++ added ∧ ∀ s ∈ added, IsTrimmed s.toList
  counter : c.counter ≤ d.counter

namespace Extends

/-- Bindings do not count. -/
theorem of_same (henclosing : d.enclosing = c.enclosing) (hwritten : d.written = c.written)
    (hcounter : d.counter = c.counter) : c.Extends d := by
  refine ⟨henclosing, ⟨[], ?_, List.forall_mem_nil _⟩, hcounter.ge⟩
  rw [hwritten, List.append_nil]

theorem refl (c : Context) : c.Extends c := of_same rfl rfl rfl

theorem trans (h : c.Extends d) (h' : d.Extends e) : c.Extends e := by
  obtain ⟨added, hadded, htrimmed⟩ := h.written
  obtain ⟨added', hadded', htrimmed'⟩ := h'.written
  refine ⟨h'.enclosing.trans h.enclosing, ⟨added ++ added', ?_, ?_⟩, h.counter.trans h'.counter⟩
  · rw [hadded', hadded, List.append_assoc]
  · exact List.forall_mem_append.mpr ⟨htrimmed, htrimmed'⟩

end Extends

theorem extends_append (s : String) (c : Context) : c.Extends (c.append s) := by
  unfold append
  split
  · exact .refl c
  · rename_i hvisible
    refine ⟨rfl, ⟨[trim s], rfl, ?_⟩, le_rfl⟩
    rw [List.forall_mem_singleton, toList_trim]
    exact .of_trimChars (trimChars_ne_nil (Bool.eq_false_iff.mpr hvisible))

theorem append_of_isBlankText {s : String} (h : isBlankText s) (c : Context) : c.append s = c :=
  if_pos h

/-- Closing the buffer that was opened first: what was written since then is gone, and the texts
before it are the innermost ones again. -/
theorem leave_of_extends_enter (h : c.enter.Extends d) :
    d.leave.1 = joined d.written ∧ d.leave.2.written = c.written ∧
      d.leave.2.enclosing = c.enclosing ∧ d.leave.2.counter = d.counter := by
  have henclosing : d.enclosing = c.written :: c.enclosing := h.enclosing
  unfold leave
  rw [henclosing]
  exact ⟨rfl, rfl, rfl, rfl⟩

end Context

namespace Render

variable {α β : Type}

def OnlyExtends (x : Render α) : Prop :=
  ∀ c : Context, c.Extends (x.run c).2

theorem onlyExtends_pure (a : α) : OnlyExtends (pure a) := Context.Extends.refl

theorem onlyExtends_ofContext (f : Context → Except Error α) : OnlyExtends (ofContext f) :=
  Context.Extends.refl

theorem onlyExtends_modify {f : Context → Context} (h : ∀ c : Context, c.Extends (f c)) :
    OnlyExtends (modify f : Render PUnit) := h

theorem onlyExtends_nextNumber : OnlyExtends nextNumber := by
  intro c
  refine ⟨rfl, ⟨[], ?_, List.forall_mem_nil _⟩, Nat.le_succ c.counter⟩
  exact (List.append_nil c.written).symm

theorem OnlyExtends.bind {x : Render α} {f : α → Render β} (hx : OnlyExtends x)
    (hf : ∀ a, OnlyExtends (f a)) : OnlyExtends (x >>= f) := by
  intro c
  have hfirst := hx c
  rw [run_bind]
  -- A step that fails is the last one.
  rcases hrun : x.run c with ⟨e | a, mid⟩
  · rw [hrun] at hfirst
    exact hfirst
  · rw [hrun] at hfirst
    exact hfirst.trans (hf a mid)

/-- A step with a buffer of its own leaves the buffer around it as it was, however it ends. -/
theorem OnlyExtends.isolated_keeps {x : Render α} (hx : OnlyExtends x) (c : Context) :
    ((isolated x).run c).2.written = c.written ∧
      ((isolated x).run c).2.enclosing = c.enclosing ∧
      c.counter ≤ ((isolated x).run c).2.counter := by
  have hinside := hx c.enter
  rw [run_isolated]
  rcases hrun : x.run c.enter with ⟨e | a, after⟩
  all_goals
    rw [hrun] at hinside
    obtain ⟨-, hwritten, henclosing, hcounter⟩ := Context.leave_of_extends_enter hinside
    exact ⟨hwritten, henclosing, hcounter ▸ hinside.counter⟩

theorem OnlyExtends.isolated {x : Render α} (hx : OnlyExtends x) : OnlyExtends (isolated x) := by
  intro c
  obtain ⟨hwritten, henclosing, hcounter⟩ := hx.isolated_keeps c
  refine ⟨henclosing, ⟨[], ?_, List.forall_mem_nil _⟩, hcounter⟩
  rw [hwritten, List.append_nil]

structure Tells (x : Render Bool) : Prop where
  extends_context : OnlyExtends x
  silent : ∀ ⦃c d⦄, x.run c = (.ok false, d) → d.written = c.written

theorem tells_pure (b : Bool) : Tells (pure b) where
  extends_context := onlyExtends_pure b
  silent c d h := by rw [(ok_inj h).2]

/-- Whatever the step answers, `true` is no promise. -/
theorem tells_true {x : Render α} (hx : OnlyExtends x) : Tells (x >>= fun _ => pure true) where
  extends_context := hx.bind fun _ => onlyExtends_pure true
  silent c d h := by
    obtain ⟨a, mid, -, hpure⟩ := run_bind_eq_ok.mp h
    exact nomatch (ok_inj hpure).1

/-- A decision between two steps that looks at the context only. -/
theorem tells_decide {f : Context → Except Error Bool} {x y : Render Bool} (hx : Tells x)
    (hy : Tells y) : Tells (ofContext f >>= fun b => if b then x else y) where
  extends_context := by
    apply (onlyExtends_ofContext f).bind
    intro b
    cases b with
    | true => exact hx.extends_context
    | false => exact hy.extends_context
  silent c d h := by
    obtain ⟨b, mid, hdecide, hrest⟩ := run_bind_eq_ok.mp h
    -- Looking at the context has left it as it was.
    obtain rfl : c = mid := (Prod.mk.inj hdecide).2
    cases b with
    | true => exact hx.silent hrest
    | false => exact hy.silent hrest

/-- Two steps of which either may have written. -/
theorem Tells.or {x y : Render Bool} (hx : Tells x) (hy : Tells y) :
    Tells (x >>= fun first => y >>= fun others => pure (first || others)) where
  extends_context :=
    hx.extends_context.bind fun _ => hy.extends_context.bind fun _ => onlyExtends_pure _
  silent c d h := by
    obtain ⟨first, mid, hfirst, hrest⟩ := run_bind_eq_ok.mp h
    obtain ⟨others, after, hothers, hpure⟩ := run_bind_eq_ok.mp hrest
    obtain ⟨hanswer, rfl⟩ := ok_inj hpure
    -- The answer is `false` only if both are.
    obtain ⟨rfl, rfl⟩ := Bool.or_eq_false_iff.mp hanswer
    rw [hy.silent hothers, hx.silent hfirst]

/-- What a silent step writes into a buffer of its own is the empty text. -/
theorem Tells.isolated_silent {x : Render Bool} (hx : Tells x) {c d : Context} {text : String}
    (h : (isolated x).run c = (.ok (false, text), d)) : text = "" ∧ d.written = c.written := by
  have hinside := hx.extends_context c.enter
  rw [run_isolated] at h
  rcases hrun : x.run c.enter with ⟨e | answer, after⟩
  · rw [hrun] at h
    exact nomatch (Prod.mk.inj h).1
  · rw [hrun] at h hinside
    obtain ⟨hanswer, rfl⟩ := ok_inj h
    obtain ⟨rfl, rfl⟩ := Prod.mk.inj hanswer
    obtain ⟨htext, hwritten, -⟩ := Context.leave_of_extends_enter hinside
    have hnothing : after.written = [] := hx.silent hrun
    rw [htext, hnothing]
    exact ⟨rfl, hwritten⟩

end Render

namespace Loop

open Render

variable (loop : Loop) {body : Render Bool}

theorem extends_bindVar (var : Option String) (n : Nat) (v : Value) (c : Context) :
    c.Extends (bindVar var n v c) := by
  cases var with
  | none => exact .refl c
  | some name => exact .of_same rfl rfl rfl

theorem extends_unbindVars (c : Context) : c.Extends (loop.unbindVars c) := by
  unfold unbindVars
  induction loop.vars generalizing c with
  | nil => exact .refl c
  | cons var vars ih =>
    have hunbind : c.Extends (c.unbind var) := .of_same rfl rfl rfl
    exact hunbind.trans (ih (c.unbind var))

theorem onlyExtends_pass (hbody : OnlyExtends body) (index item : Value) :
    OnlyExtends (loop.pass body index item) := by
  apply onlyExtends_nextNumber.bind
  intro n
  apply (onlyExtends_modify fun c => (extends_bindVar loop.index n index c).trans
    (extends_bindVar loop.item n item _)).bind
  intro _
  exact hbody.isolated.bind fun _ => onlyExtends_ofContext _

theorem onlyExtends_texts (hbody : OnlyExtends body) (entries : List (Value × Value)) :
    OnlyExtends (loop.texts body entries) := by
  induction entries with
  | nil => exact onlyExtends_pure []
  | cons entry entries ih =>
    apply (loop.onlyExtends_pass hbody entry.1 entry.2).bind
    intro text
    exact ih.bind fun more => onlyExtends_pure _

/-- A loop counts as rendered in any case. -/
theorem tells_render (hbody : OnlyExtends body) : Tells (loop.render body) := by
  have hpasses : OnlyExtends (ofContext fun ctx => loop.passes (ctx.valueAt loop.collection)) :=
    onlyExtends_ofContext _
  constructor
  · apply hpasses.bind
    intro entries
    split
    · exact onlyExtends_pure true
    · apply (loop.onlyExtends_texts hbody entries).bind
      intro texts
      apply (onlyExtends_modify loop.extends_unbindVars).bind
      intro _
      exact (onlyExtends_modify (Context.extends_append _)).bind fun _ => onlyExtends_pure true
  · intro c d h
    obtain ⟨entries, c', -, h⟩ := run_bind_eq_ok.mp h
    split at h
    · exact nomatch (ok_inj h).1
    · obtain ⟨texts, c'', -, h⟩ := run_bind_eq_ok.mp h
      exact nomatch (ok_inj h).1

end Loop

namespace Fragment

open Render

theorem tells_text (s : String) : Tells (render (.text s)) where
  extends_context := by
    rw [render]
    exact (onlyExtends_modify (Context.extends_append s)).bind fun _ => onlyExtends_pure _
  silent c d h := by
    obtain ⟨hanswer, rfl⟩ := ok_inj h
    -- Only a blank text answers so, and it is not appended.
    have hblank : isBlankText s := by simpa using hanswer
    change (c.append s).written = c.written
    rw [Context.append_of_isBlankText hblank]

/-- A trimmed part closes its buffer and writes what is left of it. -/
theorem tells_trim (rule : Trim) {body : Fragment} (hbody : Tells body.render) :
    Tells (render (.trim rule body)) where
  extends_context := by
    apply hbody.extends_context.isolated.bind
    intro part
    exact (onlyExtends_modify (Context.extends_append _)).bind fun _ => onlyExtends_pure _
  silent c d h := by
    obtain ⟨⟨tookPart, part⟩, mid, hisolated, hrest⟩ := run_bind_eq_ok.mp h
    obtain ⟨rfl, rfl⟩ := ok_inj hrest
    -- The body wrote nothing, so there is no part to put an opening or a closing text around.
    obtain ⟨rfl, hwritten⟩ := hbody.isolated_silent hisolated
    have happly : rule.apply "" = "" := Trim.apply_of_isBlankText rfl
    change (mid.append (rule.apply "")).written = c.written
    rw [happly, Context.append_of_isBlankText rfl, hwritten]

theorem tells_bind (name : String) (value : Test) : Tells (render (.bind name value)) where
  extends_context := by
    apply (onlyExtends_ofContext _).bind
    intro v
    have hbind (c : Context) : c.Extends (c.bind name v) := .of_same rfl rfl rfl
    exact (onlyExtends_modify hbind).bind fun _ => onlyExtends_pure false
  silent c d h := by
    obtain ⟨v, mid, hvalue, hrest⟩ := run_bind_eq_ok.mp h
    obtain rfl : c = mid := (Prod.mk.inj hvalue).2
    obtain ⟨-, rfl⟩ := ok_inj hrest
    rfl

/-- By induction on the fragment: the answers of its parts are right, and so is its own. -/
theorem tells_render : (f : Fragment) → Tells f.render
  | .text s => tells_text s
  | .sequence children => all children
  | .cond _ body =>
    tells_decide (tells_true (tells_render body).extends_context) (tells_pure false)
  | .choose whens none => first whens
  | .choose whens (some otherwise) => by
    have hfound := (first whens).extends_context
    have hother := tells_true (tells_render otherwise).extends_context
    constructor
    · apply hfound.bind
      intro found
      cases found with
      | true => exact onlyExtends_pure true
      | false => exact hother.extends_context
    · intro c d h
      obtain ⟨found, mid, -, h⟩ := run_bind_eq_ok.mp h
      cases found with
      | true => exact nomatch (ok_inj h).1
      | false =>
        -- The last resort counts as rendered, whatever it answers itself.
        obtain ⟨_, _, -, h⟩ := run_bind_eq_ok.mp h
        exact nomatch (ok_inj h).1
  | .trim rule body => tells_trim rule (tells_render body)
  | .bind name value => tells_bind name value
  | .foreach loop body => loop.tells_render (tells_render body).extends_context
where
  all : (fs : List Fragment) → Tells (render.renderAll fs)
    | [] => tells_pure false
    | f :: fs => (tells_render f).or (all fs)
  first : (fs : List (Test × Fragment)) → Tells (render.renderFirst fs)
    | [] => tells_pure false
    | (_, f) :: fs => tells_decide (tells_true (tells_render f).extends_context) (first fs)

/-- However the render of a fragment ends, as many buffers are open as before, those around the
innermost one are unchanged, the innermost one holds its earlier texts and behind them trimmed ones
that are not blank, and no number was given back. If the fragment took no part, the innermost buffer
is unchanged as well. -/
theorem render_extends_buffers (f : Fragment) (ctx : Context) :
    (f.render.run ctx).2.enclosing = ctx.enclosing ∧
    (∃ added, (f.render.run ctx).2.written = ctx.written ++ added ∧
      ∀ s ∈ added, isBlankText s = false ∧ Text.trim s = s) ∧
    ctx.counter ≤ (f.render.run ctx).2.counter ∧
    ((f.render.run ctx).1 = .ok false → (f.render.run ctx).2.written = ctx.written) := by
  obtain ⟨hextends, hsilent⟩ := tells_render f
  obtain ⟨henclosing, ⟨added, hwritten, htrimmed⟩, hcounter⟩ := hextends ctx
  refine ⟨henclosing, ⟨added, hwritten, ?_⟩, hcounter, ?_⟩
  · intro s hs
    exact ⟨(htrimmed s hs).isBlankText_eq, (htrimmed s hs).trim_eq⟩
  · intro hanswer
    exact hsilent (Prod.ext hanswer rfl)

end Fragment
end SqlMapper
