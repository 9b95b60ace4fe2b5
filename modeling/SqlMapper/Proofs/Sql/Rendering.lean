import SqlMapper.Sql.Bound

/-!
How steps of a render run: each of them in a context, which it leaves changed. A step can also be
told by another one that reads the same and writes nothing.
-/

namespace SqlMapper

open Text

theorem exists_ok_of_toOption {ε α β : Type} {x : Except ε α} {f : α → β} {b : β}
    (h : x.toOption.map f = some b) : ∃ a, x = .ok a ∧ f a = b := by
  cases x with
  | error e => exact nomatch h
  | ok a => exact ⟨a, rfl, Option.some.inj h⟩

/-- What is written of a text: nothing of a blank one, and of another one what is between the blanks
around it. -/
def Text.visible (s : String) : List String := if isBlankText s then [] else [trim s]

def Context.bare (ctx : Context) : Context :=
  { ctx with written := [], enclosing := [] }

namespace Render

variable {α β : Type}

theorem run_bind (step : Render α) (next : α → Render β) (ctx : Context) :
    (step >>= next).run ctx = match step.run ctx with
      | (.ok a, ctx) => (next a).run ctx
      | (.error e, ctx) => (.error e, ctx) := by
  change (match step.run ctx with | (x, ctx) => ExceptT.bindCont next x ctx) = _
  rcases step.run ctx with ⟨e | a, ctx⟩ <;> rfl

@[simp]
theorem run_modify (f : Context → Context) (ctx : Context) :
    (modify f : Render PUnit).run ctx = (.ok ⟨⟩, f ctx) := rfl

@[simp]
theorem run_ofContext (f : Context → Except Error α) (ctx : Context) :
    (ofContext f).run ctx = (f ctx, ctx) := rfl

theorem run_isolated (step : Render α) (ctx : Context) :
    (isolated step).run ctx = match step.run ctx.enter with
      | (.ok a, after) => (.ok (a, after.leave.1), after.leave.2)
      | (.error e, after) => (.error e, after.leave.2) := rfl

theorem ok_inj {a b : α} {ctx ctx' : Context}
    (h : ((.ok a, ctx) : Except Error α × Context) = (.ok b, ctx')) : a = b ∧ ctx = ctx' :=
  ⟨Except.ok.inj (Prod.mk.inj h).1, (Prod.mk.inj h).2⟩

/-- A step that goes well, and after it another one. -/
theorem run_bind_eq_ok {step : Render α} {next : α → Render β} {ctx ctx' : Context} {b : β} :
    (step >>= next).run ctx = (.ok b, ctx') ↔
      ∃ a mid, step.run ctx = (.ok a, mid) ∧ (next a).run mid = (.ok b, ctx') := by
  rw [run_bind]
  constructor
  · intro h
    rcases hstep : step.run ctx with ⟨e | a, mid⟩
    · rw [hstep] at h
      exact nomatch (Prod.mk.inj h).1
    · rw [hstep] at h
      exact ⟨a, mid, rfl, h⟩
  · rintro ⟨a, mid, hstep, hnext⟩
    rw [hstep]
    exact hnext

theorem exists_run_of_toBool {step : Render α} {ctx : Context}
    (h : (step.run ctx).1.toBool = true) : ∃ a ctx', step.run ctx = (.ok a, ctx') := by
  rcases hrun : step.run ctx with ⟨e | a, ctx'⟩
  · rw [hrun] at h
    exact nomatch h
  · exact ⟨a, ctx', rfl⟩

/-! What a step that goes well does to a context apart from writing. -/

/-- A relation between contexts that looks neither at the buffers nor at the counter, and that steps
one after the other keep. -/
structure IsFrame (R : Context → Context → Prop) : Prop where
  refl : ∀ c, R c c
  trans : ∀ {c d e}, R c d → R d e → R c e
  buffers : ∀ c written enclosing counter,
    R c { c with written := written, enclosing := enclosing, counter := counter }

def Leads (R : Context → Context → Prop) (x : Render α) : Prop :=
  ∀ ⦃c a d⦄, x.run c = (.ok a, d) → R c d

section Leads

variable {R : Context → Context → Prop} (hR : IsFrame R)

include hR

theorem leads_pure (a : α) : Leads R (pure a) := by
  intro c b d h
  obtain ⟨-, rfl⟩ := ok_inj h
  exact hR.refl c

theorem leads_ofContext (f : Context → Except Error α) : Leads R (ofContext f) := by
  intro c a d h
  obtain ⟨-, rfl⟩ := Prod.mk.inj h
  exact hR.refl c

omit hR in
theorem leads_modify {f : Context → Context} (hf : ∀ c, R c (f c)) :
    Leads R (modify f : Render PUnit) := by
  intro c a d h
  obtain ⟨-, rfl⟩ := ok_inj h
  exact hf c

theorem leads_append (s : String) : Leads R (modify (Context.append s) : Render PUnit) := by
  refine leads_modify fun c => ?_
  unfold Context.append
  split
  · exact hR.refl c
  · exact hR.buffers c _ c.enclosing c.counter

theorem leads_nextNumber : Leads R nextNumber := by
  intro c n d h
  obtain ⟨-, rfl⟩ := ok_inj h
  exact hR.buffers c c.written c.enclosing _

theorem Leads.bind {x : Render α} {f : α → Render β} (hx : Leads R x) (hf : ∀ a, Leads R (f a)) :
    Leads R (x >>= f) := by
  intro c b d h
  obtain ⟨a, mid, hfirst, hrest⟩ := run_bind_eq_ok.mp h
  exact hR.trans (hx hfirst) (hf a hrest)

/-- A step in a buffer of its own leads where the step leads. -/
theorem Leads.isolated {x : Render α} (hx : Leads R x) : Leads R (isolated x) := by
  intro c r d h
  rw [run_isolated] at h
  rcases hrun : x.run c.enter with ⟨e | a, after⟩
  · rw [hrun] at h
    exact nomatch (Prod.mk.inj h).1
  · rw [hrun] at h
    obtain ⟨-, rfl⟩ := ok_inj h
    have hleave : R after after.leave.2 := by
      unfold Context.leave
      split
      · exact hR.refl after
      · exact hR.buffers after _ _ after.counter
    exact hR.trans (hR.trans (hR.buffers c [] _ c.counter) (hx hrun)) hleave

end Leads

section Shows

variable {γ δ : Type} {R : α → List String → β → Prop} {S : γ → List String → δ → Prop}

/-- Whenever the first step goes well, so does the second in the same context without buffers. The
first writes texts into the innermost buffer and leaves the others as they are; the second writes
nothing, and what both return is related by these texts. -/
def Shows (R : α → List String → β → Prop) (x : Render α) (y : Render β) : Prop :=
  ∀ ⦃c a c'⦄, x.run c = (.ok a, c') → ∃ b texts, y.run c.bare = (.ok b, c'.bare) ∧
    c'.written = c.written ++ texts ∧ c'.enclosing = c.enclosing ∧ R a texts b

theorem shows_pure {a : α} {b : β} (h : R a [] b) : Shows R (pure a) (pure b) := by
  intro c a' c' hx
  obtain ⟨rfl, rfl⟩ := ok_inj hx
  exact ⟨b, [], rfl, (List.append_nil _).symm, rfl, h⟩

theorem Shows.bind {x : Render α} {y : Render β} {f : α → Render γ} {g : β → Render δ}
    (hxy : Shows R x y)
    (hfg : ∀ a texts b, R a texts b → Shows (fun a' texts' => S a' (texts ++ texts')) (f a) (g b)) :
    Shows S (x >>= f) (y >>= g) := by
  intro c r c' hx
  obtain ⟨a, mid, hx₁, hx₂⟩ := run_bind_eq_ok.mp hx
  obtain ⟨b, texts, hy₁, hwritten₁, henclosing₁, hR⟩ := hxy hx₁
  obtain ⟨t, texts', hy₂, hwritten₂, henclosing₂, hS⟩ := hfg a texts b hR hx₂
  refine ⟨t, texts ++ texts', run_bind_eq_ok.mpr ⟨b, _, hy₁, hy₂⟩, ?_, ?_, hS⟩
  · rw [hwritten₂, hwritten₁, List.append_assoc]
  · rw [henclosing₂, henclosing₁]

theorem Shows.imp {R' : α → List String → β → Prop} {x : Render α} {y : Render β}
    (h : Shows R x y) (himp : ∀ a texts b, R a texts b → R' a texts b) : Shows R' x y := by
  intro c a c' hx
  obtain ⟨b, texts, hy, hwritten, henclosing, hR⟩ := h hx
  exact ⟨b, texts, hy, hwritten, henclosing, himp a texts b hR⟩

/-- The first step may return something else in the end. -/
theorem Shows.returning {x : Render α} {y : Render δ} {f : α → γ}
    {R : α → List String → δ → Prop} (h : Shows R x y)
    (hf : ∀ a texts b, R a texts b → S (f a) texts b) :
    Shows S (x >>= fun a => pure (f a)) y := by
  rw [← bind_pure y]
  refine h.bind fun a texts b hR => shows_pure ?_
  rw [List.append_nil]
  exact hf a texts b hR

/-- A step beside which the other one does nothing. -/
theorem Shows.bind_pure {x : Render α} {u : β} {f : α → Render γ} {z : Render δ}
    (hx : Shows R x (pure u))
    (hf : ∀ a texts, R a texts u → Shows (fun a' texts' => S a' (texts ++ texts')) (f a) z) :
    Shows S (x >>= f) z := by
  have hbind : Shows S (x >>= f) (pure u >>= fun _ => z) := by
    refine Shows.bind (R := fun a texts b => R a texts u ∧ b = u) ?_ fun a texts b h => hf a texts h.1
    intro c a c' hrun
    obtain ⟨b, texts, hy, hwritten, henclosing, hR⟩ := hx hrun
    obtain ⟨rfl, -⟩ := ok_inj hy
    exact ⟨u, texts, hy, hwritten, henclosing, hR, rfl⟩
  rwa [pure_bind] at hbind

theorem shows_ofContext {f : Context → Except Error α} (h : ∀ c, f c.bare = f c) :
    Shows (fun a texts b => texts = [] ∧ a = b) (ofContext f) (ofContext f) := by
  intro c a c' hx
  obtain ⟨ha, rfl⟩ := Prod.mk.inj hx
  refine ⟨a, [], ?_, (List.append_nil _).symm, rfl, rfl, rfl⟩
  rw [run_ofContext, h, ha]

/-- A step that neither reads nor changes buffers. -/
theorem shows_modify {f : Context → Context}
    (h : ∀ c w e, f { c with written := w, enclosing := e } =
      { f c with written := w, enclosing := e }) :
    Shows (fun _ texts _ => texts = []) (modify f) (modify f) := by
  intro c a c' hx
  obtain ⟨-, rfl⟩ := ok_inj hx
  have hkeeps : f c = { f c with written := c.written, enclosing := c.enclosing } :=
    h c c.written c.enclosing
  refine ⟨⟨⟩, [], ?_, ?_, ?_, rfl⟩
  · rw [run_modify, Context.bare, h]
    rfl
  · rw [hkeeps, List.append_nil]
  · rw [hkeeps]

theorem shows_append (s : String) :
    Shows (fun _ texts _ => texts = visible s) (modify (Context.append s)) (pure PUnit.unit) := by
  intro c a c' hx
  obtain ⟨-, rfl⟩ := ok_inj hx
  unfold Context.append visible
  split
  · exact ⟨⟨⟩, [], rfl, (List.append_nil _).symm, rfl, rfl⟩
  · exact ⟨⟨⟩, [trim s], rfl, rfl, rfl, rfl⟩

theorem shows_nextNumber :
    Shows (fun n texts m => texts = [] ∧ n = m) nextNumber nextNumber := by
  intro c n c' hx
  obtain ⟨rfl, rfl⟩ := ok_inj hx
  exact ⟨c.counter, [], rfl, (List.append_nil _).symm, rfl, rfl, rfl⟩

/-- What a step writes into a buffer of its own is put together, and nothing is written. -/
theorem Shows.isolated {x : Render α} {y : Render β} (h : Shows R x y) :
    Shows (fun r texts b => texts = [] ∧ ∃ inner, r.2 = Context.joined inner ∧ R r.1 inner b)
      (isolated x) y := by
  intro c r c' hx
  rw [run_isolated] at hx
  rcases hrun : x.run c.enter with ⟨e | a, after⟩
  · rw [hrun] at hx
    exact nomatch (Prod.mk.inj hx).1
  · rw [hrun] at hx
    obtain ⟨rfl, rfl⟩ := ok_inj hx
    obtain ⟨b, inner, hy, hwritten, henclosing, hR⟩ := h hrun
    obtain ⟨p, bindings, written, enclosing, counter⟩ := after
    obtain rfl : enclosing = c.written :: c.enclosing := henclosing
    obtain rfl : written = inner := hwritten
    exact ⟨b, [], hy, (List.append_nil _).symm, rfl, rfl, written, rfl, hR⟩

end Shows

end Render
end SqlMapper
