import SqlMapper.Proofs.Sql.Decisions

/-!
Two renders of one fragment that decide the same write the same, whatever their parameters hold.
They are compared step by step; what a step returns that comes from a value may differ.
-/

namespace SqlMapper

/-- Two contexts in which the same was written under the same generated names. What is bound in them
may differ, as may their parameters. -/
structure Context.Alike (c d : Context) : Prop where
  written : c.written = d.written
  enclosing : c.enclosing = d.enclosing
  counter : c.counter = d.counter

namespace Context.Alike

variable {c d : Context}

theorem append (h : c.Alike d) (s : String) : (c.append s).Alike (d.append s) := by
  unfold Context.append
  split
  · exact h
  · exact ⟨by rw [h.written], h.enclosing, h.counter⟩

theorem bind (h : c.Alike d) (n m : String) (v w : Value) : (c.bind n v).Alike (d.bind m w) :=
  ⟨h.written, h.enclosing, h.counter⟩

theorem bindVar (h : c.Alike d) (var : Option String) (n : Nat) (v w : Value) :
    (Loop.bindVar var n v c).Alike (Loop.bindVar var n w d) := by
  cases var with
  | none => exact h
  | some name => exact (h.bind _ _ _ _).bind _ _ _ _

theorem unbindVars (h : c.Alike d) (loop : Loop) :
    (loop.unbindVars c).Alike (loop.unbindVars d) := by
  unfold Loop.unbindVars
  induction loop.vars generalizing c d with
  | nil => exact h
  | cons name names ih => exact ih ⟨h.written, h.enclosing, h.counter⟩

theorem enter (h : c.Alike d) : c.enter.Alike d.enter :=
  ⟨rfl, congrArg₂ List.cons h.written h.enclosing, h.counter⟩

theorem leave (h : c.Alike d) : c.leave.1 = d.leave.1 ∧ c.leave.2.Alike d.leave.2 := by
  obtain ⟨p, bs, written, enclosing, counter⟩ := c
  obtain ⟨p', bs', written', enclosing', counter'⟩ := d
  obtain ⟨rfl, rfl, rfl⟩ : written = written' ∧ enclosing = enclosing' ∧ counter = counter' :=
    ⟨h.written, h.enclosing, h.counter⟩
  cases enclosing with
  | nil => exact ⟨rfl, rfl, rfl, rfl⟩
  | cons outer rest => exact ⟨rfl, rfl, rfl, rfl⟩

theorem sql (h : c.Alike d) : c.sql = d.sql := by
  unfold Context.sql
  rw [h.written, h.enclosing]

end Context.Alike

namespace Tracked

variable {α β γ δ : Type} {R : α → β → Prop} {S : γ → δ → Prop}

/-- Two steps that write the same and return related results, as long as they decide the same. Both
start where the same was written, and go well; what they decide need only be the beginning of one
sequence of decisions. -/
def Agree (R : α → β → Prop) (x : Tracked α) (y : Tracked β) : Prop :=
  ∀ ⦃c d : Context⦄, c.Alike d →
    ∀ ⦃a s c'⦄, x.run.run c = (.ok (a, s), c') → ∀ ⦃b t d'⦄, y.run.run d = (.ok (b, t), d') →
      ∀ ⦃u v⦄, s ++ u = t ++ v → R a b ∧ s = t ∧ c'.Alike d'

theorem run_bind_eq_ok {x : Tracked α} {f : α → Tracked β} {c c' : Context} {b : β}
    {w : Decisions} (h : (x >>= f).run.run c = (.ok (b, w), c')) :
    ∃ a s mid t, x.run.run c = (.ok (a, s), mid) ∧ (f a).run.run mid = (.ok (b, t), c') ∧
      w = s ++ t := by
  change (x.run >>= fun z => (fun y => (y.1, z.2 ++ y.2)) <$> (f z.1).run).run c = _ at h
  obtain ⟨⟨a, s⟩, mid, hx, hrest⟩ := Render.run_bind_eq_ok.mp h
  rw [map_eq_pure_bind] at hrest
  obtain ⟨⟨b', t⟩, mid', hf, hpure⟩ := Render.run_bind_eq_ok.mp hrest
  obtain ⟨hb, rfl⟩ := Render.ok_inj hpure
  obtain ⟨rfl, rfl⟩ := Prod.mk.inj hb
  exact ⟨a, s, mid, t, hx, hf, rfl⟩

theorem run_ofRender_eq_ok {x : Render α} {c c' : Context} {a : α} {s : Decisions}
    (h : (ofRender x).run.run c = (.ok (a, s), c')) : x.run c = (.ok a, c') ∧ s = ∅ := by
  change ((fun a => (a, (∅ : Decisions))) <$> x).run c = _ at h
  rw [map_eq_pure_bind] at h
  obtain ⟨a', mid, hx, hpure⟩ := Render.run_bind_eq_ok.mp h
  obtain ⟨ha, rfl⟩ := Render.ok_inj hpure
  obtain ⟨rfl, rfl⟩ := Prod.mk.inj ha
  exact ⟨hx, rfl⟩

theorem run_isolated_eq_ok {x : Tracked α} {c c' : Context} {a : α} {text : String}
    {s : Decisions} (h : x.isolated.run.run c = (.ok ((a, text), s), c')) :
    ∃ after : Context, x.run.run c.enter = (.ok (a, s), after) ∧ text = after.leave.1 ∧
      c' = after.leave.2 := by
  obtain ⟨⟨⟨a', s'⟩, text'⟩, mid, hx, hpure⟩ := Render.run_bind_eq_ok.mp h
  obtain ⟨ha, rfl⟩ := Render.ok_inj hpure
  obtain ⟨⟨rfl, rfl⟩, rfl⟩ : (a' = a ∧ text' = text) ∧ s' = s := by simpa using ha
  rw [Render.run_isolated] at hx
  rcases hrun : x.run.run c.enter with ⟨e | ⟨b, t⟩, after⟩
  · rw [hrun] at hx
    exact nomatch (Prod.mk.inj hx).1
  · rw [hrun] at hx
    obtain ⟨heq, rfl⟩ := Render.ok_inj hx
    obtain ⟨⟨rfl, rfl⟩, rfl⟩ : (b = a' ∧ t = s') ∧ after.leave.1 = text' := by simpa using heq
    exact ⟨after, rfl, rfl, rfl⟩

theorem agree_pure {a : α} {b : β} (h : R a b) : Agree R (pure a) (pure b) := by
  intro c d halike a' s c' hx b' t d' hy u v heq
  obtain ⟨ha, rfl⟩ := Render.ok_inj hx
  obtain ⟨hb, rfl⟩ := Render.ok_inj hy
  obtain ⟨rfl, rfl⟩ := Prod.mk.inj ha
  obtain ⟨rfl, rfl⟩ := Prod.mk.inj hb
  exact ⟨h, rfl, halike⟩

theorem Agree.bind {x : Tracked α} {y : Tracked β} {f : α → Tracked γ} {g : β → Tracked δ}
    (hxy : Agree R x y) (hfg : ∀ a b, R a b → Agree S (f a) (g b)) :
    Agree S (x >>= f) (y >>= g) := by
  intro c d halike r s c' hx r' t d' hy u v heq
  obtain ⟨a, s₁, c₁, s₂, hx₁, hx₂, rfl⟩ := run_bind_eq_ok hx
  obtain ⟨b, t₁, d₁, t₂, hy₁, hy₂, rfl⟩ := run_bind_eq_ok hy
  rw [Decisions.append_assoc, Decisions.append_assoc] at heq
  -- What the first steps decide is the same, so what the others decide begins the same too.
  obtain ⟨hab, rfl, halike₁⟩ := hxy halike hx₁ hy₁ heq
  obtain ⟨hr, rfl, halike₂⟩ := hfg a b hab halike₁ hx₂ hy₂ (Decisions.append_left_cancel heq)
  exact ⟨hr, rfl, halike₂⟩

/-- Steps that decide nothing agree if they do so by themselves. -/
theorem agree_ofRender {x : Render α} {y : Render β}
    (h : ∀ c d, c.Alike d → ∀ a c', x.run c = (.ok a, c') → ∀ b d', y.run d = (.ok b, d') →
      R a b ∧ c'.Alike d') : Agree R (ofRender x) (ofRender y) := by
  intro c d halike a s c' hx b t d' hy u v heq
  obtain ⟨hx', rfl⟩ := run_ofRender_eq_ok hx
  obtain ⟨hy', rfl⟩ := run_ofRender_eq_ok hy
  obtain ⟨hab, halike'⟩ := h c d halike _ _ hx' _ _ hy'
  exact ⟨hab, rfl, halike'⟩

theorem agree_modify {f g : Context → Context} (h : ∀ c d, c.Alike d → (f c).Alike (g d)) :
    Agree (fun _ _ => True) (ofRender (modify f)) (ofRender (modify g)) := by
  refine agree_ofRender fun c d halike a c' hx b d' hy => ⟨trivial, ?_⟩
  obtain ⟨-, rfl⟩ := Render.ok_inj hx
  obtain ⟨-, rfl⟩ := Render.ok_inj hy
  exact h c d halike

/-- What is read from the contexts may differ. -/
theorem agree_ofContext (f : Context → Except Error α) (g : Context → Except Error β) :
    Agree (fun _ _ => True) (ofRender (Render.ofContext f)) (ofRender (Render.ofContext g)) := by
  refine agree_ofRender fun c d halike a c' hx b d' hy => ⟨trivial, ?_⟩
  obtain ⟨-, rfl⟩ := Prod.mk.inj hx
  obtain ⟨-, rfl⟩ := Prod.mk.inj hy
  exact halike

/-- A result that depends on nothing in the context. -/
theorem agree_const (r : Except Error α) :
    Agree Eq (ofRender (Render.ofContext fun _ => r)) (ofRender (Render.ofContext fun _ => r)) := by
  refine agree_ofRender fun c d halike a c' hx b d' hy => ?_
  obtain ⟨ha, rfl⟩ := Prod.mk.inj hx
  obtain ⟨hb, rfl⟩ := Prod.mk.inj hy
  exact ⟨Except.ok.inj (ha.symm.trans hb), halike⟩

theorem agree_nextNumber : Agree Eq (ofRender Render.nextNumber) (ofRender Render.nextNumber) := by
  refine agree_ofRender fun c d halike a c' hx b d' hy => ?_
  obtain ⟨rfl, rfl⟩ := Render.ok_inj hx
  obtain ⟨rfl, rfl⟩ := Render.ok_inj hy
  exact ⟨halike.counter, halike.written, halike.enclosing, congrArg (· + 1) halike.counter⟩

/-- Steps that tell something and then return something. -/
theorem agree_tell {d e : Decisions} {a : α} {b : β}
    (h : ∀ ⦃u v⦄, d ++ u = e ++ v → R a b ∧ d = e) :
    Agree R (do tell d; return a) (do tell e; return b) := by
  intro c c' halike a' s c₁ hx b' t c₁' hy u v heq
  obtain ⟨ha, rfl⟩ := Render.ok_inj hx
  obtain ⟨hb, rfl⟩ := Render.ok_inj hy
  obtain ⟨rfl, hs⟩ := Prod.mk.inj ha
  obtain ⟨rfl, ht⟩ := Prod.mk.inj hb
  obtain rfl : d = s := d.append_empty.symm.trans hs
  obtain rfl : e = t := e.append_empty.symm.trans ht
  obtain ⟨hab, rfl⟩ := h heq
  exact ⟨hab, rfl, halike⟩

theorem agree_holds (test : Test) : Agree Eq (holds test) (holds test) := by
  refine (agree_ofContext _ _).bind fun held held' _ => agree_tell fun u v heq => ?_
  obtain rfl := Decisions.test_append_inj heq
  exact ⟨rfl, rfl⟩

theorem agree_passes (loop : Loop) :
    Agree (fun es es' => es.length = es'.length) (passes loop) (passes loop) := by
  refine (agree_ofContext _ _).bind fun es es' _ => agree_tell fun u v heq => ?_
  have hlength := Decisions.count_append_inj heq
  exact ⟨hlength, congrArg Decisions.count hlength⟩

theorem Agree.isolated {x : Tracked α} {y : Tracked β} (h : Agree R x y) :
    Agree (fun a b => R a.1 b.1 ∧ a.2 = b.2) x.isolated y.isolated := by
  rintro c d halike ⟨a, text⟩ s c' hx ⟨b, text'⟩ t d' hy u v heq
  obtain ⟨after, hx', rfl, rfl⟩ := run_isolated_eq_ok hx
  obtain ⟨after', hy', rfl, rfl⟩ := run_isolated_eq_ok hy
  obtain ⟨hab, hst, halike'⟩ := h halike.enter hx' hy' heq
  exact ⟨⟨hab, halike'.leave.1⟩, hst, halike'.leave.2⟩

end Tracked

namespace Loop

open Tracked

variable (loop : Loop) {body : Tracked Bool}

theorem agree_trackedPass (h : Agree Eq body body) (i j v w : Value) :
    Agree Eq (loop.trackedPass body i v) (loop.trackedPass body j w) := by
  refine agree_nextNumber.bind fun n _ heq => ?_
  subst heq
  -- The variables are bound to different values, but the generated names are the same.
  refine (agree_modify fun c d halike => ?_).bind fun _ _ _ => h.isolated.bind ?_
  · exact (halike.bindVar loop.index n i j).bindVar loop.item n v w
  · rintro ⟨a, text⟩ ⟨b, text'⟩ ⟨-, rfl⟩
    exact agree_const _

/-- The texts of as many passes are the same, whatever they pass over. -/
theorem agree_trackedTexts (h : Agree Eq body body) {es es' : List (Value × Value)}
    (hlength : es.length = es'.length) :
    Agree Eq (loop.trackedTexts body es) (loop.trackedTexts body es') := by
  -- On the passes of the first loop; the other one makes as many, over other items.
  induction es generalizing es' with
  | nil =>
    obtain rfl := List.length_eq_zero_iff.mp hlength.symm
    exact agree_pure rfl
  | cons e es ih =>
    obtain ⟨e', es', rfl⟩ := List.exists_cons_of_length_eq_add_one hlength.symm
    refine (loop.agree_trackedPass h e.1 e'.1 e.2 e'.2).bind fun text _ heq => ?_
    subst heq
    refine (ih (Nat.succ.inj hlength)).bind fun more _ heq => ?_
    subst heq
    exact agree_pure rfl

theorem agree_tracked (h : Agree Eq body body) : Agree Eq (loop.tracked body) (loop.tracked body) := by
  refine (agree_passes loop).bind fun es es' hlength => ?_
  have hempty : es.isEmpty = es'.isEmpty := by
    rw [Bool.eq_iff_iff, List.isEmpty_iff_length_eq_zero, List.isEmpty_iff_length_eq_zero, hlength]
  rw [hempty]
  split
  · exact agree_pure rfl
  · refine (loop.agree_trackedTexts h hlength).bind fun texts _ heq => ?_
    subst heq
    refine (agree_modify fun c d halike => halike.unbindVars loop).bind fun _ _ _ => ?_
    exact (agree_modify fun c d halike => halike.append _).bind fun _ _ _ => agree_pure rfl

end Loop

namespace Fragment

open Tracked

/-- Two renders of one fragment that decide the same agree, whatever they are given. -/
theorem agree_tracked : (f : Fragment) → Agree Eq f.tracked f.tracked
  | .text s => (agree_modify fun c d halike => halike.append s).bind fun _ _ _ => agree_pure rfl
  | .sequence children => all children
  | .cond test body => by
    refine (agree_holds test).bind fun held _ heq => ?_
    subst heq
    cases held with
    | true => exact (agree_tracked body).bind fun _ _ _ => agree_pure rfl
    | false => exact agree_pure rfl
  | .choose whens none => first whens
  | .choose whens (some otherwise) => by
    refine (first whens).bind fun found _ heq => ?_
    subst heq
    cases found with
    | true => exact agree_pure rfl
    | false => exact (agree_tracked otherwise).bind fun _ _ _ => agree_pure rfl
  | .trim rule body => by
    refine (agree_tracked body).isolated.bind ?_
    rintro ⟨tookPart, part⟩ ⟨-, -⟩ ⟨rfl, rfl⟩
    exact (agree_modify fun c d halike => halike.append _).bind fun _ _ _ => agree_pure rfl
  | .bind name value =>
    (agree_ofContext _ _).bind fun v w _ =>
      (agree_modify fun c d halike => halike.bind name name v w).bind fun _ _ _ => agree_pure rfl
  | .foreach loop body => loop.agree_tracked (agree_tracked body)
where
  all : (fs : List Fragment) → Agree Eq (tracked.trackedAll fs) (tracked.trackedAll fs)
    | [] => agree_pure rfl
    | f :: fs => by
      refine (agree_tracked f).bind fun first _ heq => ?_
      subst heq
      refine (all fs).bind fun others _ heq => ?_
      subst heq
      exact agree_pure rfl
  first : (fs : List (Test × Fragment)) → Agree Eq (tracked.trackedFirst fs) (tracked.trackedFirst fs)
    | [] => agree_pure rfl
    | (test, f) :: fs => by
      refine (agree_holds test).bind fun held _ heq => ?_
      subst heq
      cases held with
      | true => exact (agree_tracked f).bind fun _ _ _ => agree_pure rfl
      | false => exact first fs

def decisions (f : Fragment) (parameter : Value) (databaseId : Option String) : Option Decisions :=
  match f.tracked.run.run (Context.start parameter databaseId) with
  | (.ok (_, d), _) => some d
  | (.error _, _) => none

theorem run_tracked_of_run {f : Fragment} {ctx ctx' : Context} {b : Bool}
    (h : f.render.run ctx = (.ok b, ctx')) : ∃ d, f.tracked.run.run ctx = (.ok (b, d), ctx') := by
  rw [← f.erase_tracked, Tracked.erase, map_eq_pure_bind] at h
  obtain ⟨⟨b', d⟩, mid, htracked, hpure⟩ := Render.run_bind_eq_ok.mp h
  obtain ⟨rfl, rfl⟩ := Render.ok_inj hpure
  exact ⟨d, htracked⟩

theorem decisions_of_run_tracked {f : Fragment} {parameter : Value} {databaseId : Option String}
    {b : Bool} {d : Decisions} {ctx : Context}
    (h : f.tracked.run.run (Context.start parameter databaseId) = (.ok (b, d), ctx)) :
    f.decisions parameter databaseId = some d := by
  rw [decisions, h]

theorem bound_rendered {f : Fragment} {parameter : Value} {databaseId : Option String} {b : Bool}
    {ctx : Context} (h : f.render.run (Context.start parameter databaseId) = (.ok b, ctx)) :
    ((Source.rendered f databaseId).bound parameter).map (fun s => (s.sql, s.properties)) =
      (Placeholder.template ctx.sql).map fun t => (t.sql, t.properties) := by
  rw [Source.bound, h]
  dsimp only
  cases Placeholder.template ctx.sql with
  | error e => rfl
  | ok t => rfl

/-- Two renders of a fragment, with any two parameters and databases, that go well and decide the
same give the same text and the same properties: no part of a value becomes text. -/
theorem bound_eq_of_decisions (f : Fragment) {p p' : Value} {databaseId databaseId' : Option String}
    {b b' : Bool} {c c' : Context} (hr : f.render.run (Context.start p databaseId) = (.ok b, c))
    (hr' : f.render.run (Context.start p' databaseId') = (.ok b', c'))
    (hsame : f.decisions p databaseId = f.decisions p' databaseId') :
    ((Source.rendered f databaseId).bound p).map (fun s => (s.sql, s.properties)) =
      ((Source.rendered f databaseId').bound p').map fun s => (s.sql, s.properties) := by
  obtain ⟨d, htracked⟩ := run_tracked_of_run hr
  obtain ⟨d', htracked'⟩ := run_tracked_of_run hr'
  obtain rfl : d = d' := by
    rw [decisions_of_run_tracked htracked, decisions_of_run_tracked htracked'] at hsame
    exact Option.some.inj hsame
  have hstart : (Context.start p databaseId).Alike (Context.start p' databaseId') := ⟨rfl, rfl, rfl⟩
  -- Both have decided all that they will, which is the beginning of itself.
  obtain ⟨-, -, halike⟩ := f.agree_tracked hstart htracked htracked' (rfl : d ++ ∅ = d ++ ∅)
  rw [bound_rendered hr, bound_rendered hr', halike.sql]

def searching : Fragment :=
  .sequence [
    .text "SELECT * FROM t",
    .bind "low" ⟨"min", .path "min"⟩,
    .trim ⟨some "WHERE", ["AND "], none, []⟩ <| .sequence [
      .cond ⟨"low != null", .compare (.path "low") .ne (.literal .null)⟩
        (.text "AND a > #\x7blow\x7d"),
      .foreach ⟨"ids", some "id", some "key", "AND b IN (", ")", ", ", false⟩
        (.text "#\x7bid\x7d")]]

/-- A bound that looks like SQL, and a map of other texts with such keys, change nothing. -/
theorem bound_eq_searching :
    let p : Value := .map [("ids", .list [.int 4, .int 5]), ("min", .int 3)]
    let p' : Value := .map [("ids", .map [("') OR (1 = 1", .text "#\x7bx\x7d"), ("--", .null)]),
      ("min", .text "0 OR 1 = 1")]
    ∃ b c b' c', searching.render.run (Context.start p none) = (.ok b, c) ∧
      searching.render.run (Context.start p' (some "db")) = (.ok b', c') ∧
      searching.decisions p none = searching.decisions p' (some "db") ∧
      ((Source.rendered searching none).bound p).map (fun s => (s.sql, s.properties)) =
        ((Source.rendered searching (some "db")).bound p').map fun s => (s.sql, s.properties) := by
  intro p p'
  have hgood (q : Value) (db : Option String)
      (h : ((searching.render.run (Context.start q db)).1.toBool) = true) :
      ∃ b c, searching.render.run (Context.start q db) = (.ok b, c) := by
    rcases hrun : searching.render.run (Context.start q db) with ⟨e | b, c⟩
    · rw [hrun] at h
      exact nomatch h
    · exact ⟨b, c, rfl⟩
  obtain ⟨b, c, hr⟩ := hgood p none (by decide +kernel)
  obtain ⟨b', c', hr'⟩ := hgood p' (some "db") (by decide +kernel)
  have hsame : searching.decisions p none = searching.decisions p' (some "db") := by decide +kernel
  exact ⟨b, c, b', c', hr, hr', hsame, bound_eq_of_decisions searching hr hr' hsame⟩

end Fragment
end SqlMapper
