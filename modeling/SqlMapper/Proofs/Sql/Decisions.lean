import Mathlib.Control.Monad.Writer
import SqlMapper.Proofs.Sql.Rendering

/-!
What a render decides by values: whether a test holds, and how many passes a loop makes. Two renders
are related that decide the beginning of the same sequence; their bindings need not be the same.
-/

namespace SqlMapper

/-- What a render decides by values: whether each test held that it came to, and how many passes
each loop made, both in the order of the render. -/
structure Decisions where
  tests : List Bool
  counts : List Nat
  deriving DecidableEq, Repr

namespace Decisions

instance : EmptyCollection Decisions := ⟨⟨[], []⟩⟩

instance : Append Decisions := ⟨fun d e => ⟨d.tests ++ e.tests, d.counts ++ e.counts⟩⟩

def test (held : Bool) : Decisions := ⟨[held], []⟩

def count (passes : Nat) : Decisions := ⟨[], [passes]⟩

variable (d e f : Decisions)

theorem append_empty : d ++ ∅ = d := by
  change (⟨d.tests ++ [], d.counts ++ []⟩ : Decisions) = d
  rw [List.append_nil, List.append_nil]

theorem append_assoc : d ++ e ++ f = d ++ (e ++ f) := by
  change (⟨_ ++ _ ++ _, _ ++ _ ++ _⟩ : Decisions) = ⟨_, _⟩
  rw [List.append_assoc, List.append_assoc]
  rfl

variable {d e f}

theorem append_left_cancel (h : d ++ e = d ++ f) : e = f := by
  obtain ⟨htests, hcounts⟩ := Decisions.mk.inj h
  cases e
  cases f
  exact congrArg₂ mk (List.append_cancel_left htests) (List.append_cancel_left hcounts)

theorem test_append_inj {b c : Bool} (h : test b ++ d = test c ++ e) : b = c :=
  (List.cons.inj (Decisions.mk.inj h).1).1

theorem count_append_inj {m n : Nat} (h : count m ++ d = count n ++ e) : m = n :=
  (List.cons.inj (Decisions.mk.inj h).2).1

end Decisions

abbrev Tracked := WriterT Decisions Render

namespace Tracked

variable {α β γ δ : Type}

def erase (step : Tracked α) : Render α := (·.1) <$> step.run

def ofRender (step : Render α) : Tracked α := liftM step

def isolated (step : Tracked α) : Tracked (α × String) :=
  WriterT.mk do
    let ((a, d), text) ← Render.isolated step.run
    return ((a, text), d)

def holds (test : Test) : Tracked Bool := do
  let held ← ofRender (Fragment.holds test)
  tell (.test held)
  return held

def passes (loop : Loop) : Tracked (List (Value × Value)) := do
  let entries ← ofRender (Render.ofContext fun ctx => loop.passes (ctx.valueAt loop.collection))
  tell (.count entries.length)
  return entries

end Tracked

namespace Loop

variable (loop : Loop)

def trackedPass (body : Tracked Bool) (index item : Value) : Tracked String := do
  let n ← Tracked.ofRender Render.nextNumber
  Tracked.ofRender (modify fun ctx => bindVar loop.item n item (bindVar loop.index n index ctx))
  let (_, text) ← Tracked.isolated body
  Tracked.ofRender (Render.ofContext fun _ => loop.rename n text)

def trackedTexts (body : Tracked Bool) : List (Value × Value) → Tracked (List String)
  | [] => return []
  | (index, item) :: rest => do
    let text ← loop.trackedPass body index item
    let more ← trackedTexts body rest
    return if Text.isBlankText text then more else text :: more

def tracked (body : Tracked Bool) : Tracked Bool := do
  let entries ← Tracked.passes loop
  if entries.isEmpty then return true
  let texts ← loop.trackedTexts body entries
  Tracked.ofRender (modify loop.unbindVars)
  Tracked.ofRender
    (modify (Context.append (loop.opening ++ loop.separator.intercalate texts ++ loop.closing)))
  return true

end Loop

namespace Fragment

def tracked : Fragment → Tracked Bool
  | .text s => do
    Tracked.ofRender (modify (Context.append s))
    return !Text.isBlankText s
  | .sequence children => trackedAll children
  | .cond test body => do
    if ← Tracked.holds test then
      let _ ← tracked body
      return true
    else return false
  | .choose whens none => trackedFirst whens
  | .choose whens (some otherwise) => do
    if ← trackedFirst whens then return true
    else
      let _ ← tracked otherwise
      return true
  | .trim rule body => do
    let (tookPart, part) ← Tracked.isolated (tracked body)
    Tracked.ofRender (modify (Context.append (rule.apply part)))
    return tookPart
  | .bind name value => do
    let v ← Tracked.ofRender (Render.ofContext fun ctx => value.value ctx.valueAt)
    Tracked.ofRender (modify (Context.bind name v))
    return false
  | .foreach loop body => loop.tracked (tracked body)
where
  trackedAll : List Fragment → Tracked Bool
    | [] => return false
    | f :: fs => do
      let first ← tracked f
      let others ← trackedAll fs
      return first || others
  trackedFirst : List (Test × Fragment) → Tracked Bool
    | [] => return false
    | (test, f) :: fs => do
      if ← Tracked.holds test then
        let _ ← tracked f
        return true
      else trackedFirst fs

end Fragment

namespace Tracked

variable {α β γ δ : Type}

/-! Nothing is rendered otherwise because it is told. -/

@[simp]
theorem erase_pure (a : α) : (pure a : Tracked α).erase = pure a := rfl

@[simp]
theorem erase_ofRender (step : Render α) : (ofRender step).erase = step := by
  change (·.1) <$> (fun a => (a, (∅ : Decisions))) <$> step = step
  rw [Functor.map_map]
  exact id_map step

@[simp]
theorem erase_tell (d : Decisions) : (tell d : Tracked PUnit).erase = pure ⟨⟩ := rfl

@[simp]
theorem erase_bind (step : Tracked α) (next : α → Tracked β) :
    (step >>= next).erase = step.erase >>= fun a => (next a).erase := by
  change (·.1) <$> (step.run >>= fun x => (fun y => (y.1, x.2 ++ y.2)) <$> (next x.1).run) = _
  simp only [erase, map_bind, bind_map_left, Functor.map_map]

@[simp]
theorem erase_isolated (step : Tracked α) : (isolated step).erase = Render.isolated step.erase := by
  refine funext fun ctx => ?_
  change ((fun x : (α × String) × Decisions => x.1) <$> (Render.isolated step.run >>= fun x =>
    pure ((x.1.1, x.2), x.1.2))).run ctx =
      (Render.isolated ((fun x : α × Decisions => x.1) <$> step.run)).run ctx
  rw [map_eq_pure_bind, map_eq_pure_bind, Render.run_bind, Render.run_bind, Render.run_isolated,
    Render.run_isolated, Render.run_bind]
  rcases step.run.run ctx.enter with ⟨e | a, after⟩
  · rfl
  · rfl

@[simp]
theorem erase_holds (test : Test) : (holds test).erase = Fragment.holds test := by
  simp [holds]

@[simp]
theorem erase_passes (loop : Loop) : (passes loop).erase =
    Render.ofContext fun ctx => loop.passes (ctx.valueAt loop.collection) := by
  simp [passes]

end Tracked

namespace Loop

variable (loop : Loop) (body : Tracked Bool)

@[simp]
theorem erase_trackedPass (index item : Value) :
    (loop.trackedPass body index item).erase = loop.pass body.erase index item := by
  simp [trackedPass, pass]

@[simp]
theorem erase_trackedTexts (entries : List (Value × Value)) :
    (loop.trackedTexts body entries).erase = loop.texts body.erase entries := by
  induction entries with
  | nil => rfl
  | cons entry rest ih => simp [trackedTexts, texts, ih]

@[simp]
theorem erase_tracked : (loop.tracked body).erase = loop.render body.erase := by
  simp only [tracked, Tracked.erase_bind, Tracked.erase_passes, render]
  refine congrArg _ (funext fun entries => ?_)
  split
  · rfl
  · simp

end Loop

namespace Fragment

/-- A fragment renders the same whether its decisions are tracked or not. -/
theorem erase_tracked : (f : Fragment) → f.tracked.erase = f.render
  | .text s => by simp [tracked, render]
  | .sequence children => all children
  | .cond test body => by
    simp only [tracked, render, Tracked.erase_bind, Tracked.erase_holds]
    refine congrArg _ (funext fun held => ?_)
    cases held with
    | true => simp [erase_tracked body]
    | false => rfl
  | .choose whens none => first whens
  | .choose whens (some otherwise) => by
    simp only [tracked, render, Tracked.erase_bind, first whens]
    refine congrArg _ (funext fun found => ?_)
    cases found with
    | true => rfl
    | false => simp [erase_tracked otherwise]
  | .trim rule body => by
    simp [tracked, render, erase_tracked body]
  | .bind name value => by simp [tracked, render]
  | .foreach loop body => by
    simp [tracked, render, erase_tracked body]
where
  all : (fs : List Fragment) → (tracked.trackedAll fs).erase = render.renderAll fs
    | [] => rfl
    | f :: fs => by simp [tracked.trackedAll, render.renderAll, erase_tracked f, all fs]
  first : (fs : List (Test × Fragment)) → (tracked.trackedFirst fs).erase = render.renderFirst fs
    | [] => rfl
    | (test, f) :: fs => by
      simp only [tracked.trackedFirst, render.renderFirst, Tracked.erase_bind, Tracked.erase_holds]
      refine congrArg _ (funext fun held => ?_)
      cases held with
      | true => simp [erase_tracked f]
      | false => exact first fs

end Fragment
end SqlMapper
