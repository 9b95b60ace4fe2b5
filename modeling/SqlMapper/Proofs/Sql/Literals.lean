import SqlMapper.Proofs.Sql.Trace

/-!
Escaped placeholders in a bound statement. Whether a token stays literal is decided by its
backslashes and the loops around it: each of these takes a backslash away, and the scan at the end
another.
-/

namespace SqlMapper

open Text Placeholder

namespace Placeholder.Token

variable {t : Token} {frames : List Frame}

theorem slashes_rescanned (vars : List String) (n : Nat) (t : Token) :
    (t.rescanned vars n).slashes = t.slashes - 1 := by
  obtain ⟨_ | k, content⟩ := t <;> rfl

theorem slashes_scanned (t : Token) (frames : List Frame) :
    (t.scanned frames).slashes = t.slashes - frames.length := by
  induction frames generalizing t with
  | nil => rfl
  | cons frame frames ih =>
    rw [scanned, List.foldl_cons, ← scanned, ih, slashes_rescanned, List.length_cons]
    omega

/-- As long as backslashes are left, no loop renames the token. -/
theorem content_scanned (h : frames.length ≤ t.slashes) : (t.scanned frames).content = t.content := by
  induction frames generalizing t with
  | nil => rfl
  | cons frame frames ih =>
    obtain ⟨_ | k, content⟩ := t
    · exact nomatch h
    · exact ih (Nat.le_of_succ_le_succ h)

theorem shown_of_pos (h : 0 < t.slashes) :
    t.shown = List.replicate (t.slashes - 1) '\\' ++ write t.content := by
  obtain ⟨_ | k, content⟩ := t
  · exact nomatch h
  · rfl

theorem property?_of_pos (h : 0 < t.slashes) : t.property? = none := by
  obtain ⟨_ | k, content⟩ := t
  · exact nomatch h
  · rfl

theorem shown_of_zero (h : t.slashes = 0) : t.shown = ['?'] := by
  obtain ⟨_ | k, content⟩ := t
  · rfl
  · exact nomatch h

theorem property?_of_zero (h : t.slashes = 0) : t.property? = some (.ofList (property t.content)) := by
  obtain ⟨_ | k, content⟩ := t
  · rfl
  · exact nomatch h

end Placeholder.Token

section Bits

variable {bits : List Bit} {events pre post : List Event}

theorem Bit.property?_eq_bind (b : Bit) : b.property? = b.token?.bind Token.property? := by
  cases b <;> rfl

/-- What the placeholders among the bits name is decided by the tokens. -/
theorem filterMap_property? (h : bits.filterMap Bit.token? = events.filterMap Event.token?) :
    bits.filterMap Bit.property? = events.filterMap Event.property? := by
  have hbits : bits.filterMap Bit.property? =
      (bits.filterMap Bit.token?).filterMap Token.property? := by
    rw [List.filterMap_filterMap]
    exact congrArg (bits.filterMap ·) (funext Bit.property?_eq_bind)
  rw [hbits, h, List.filterMap_filterMap]
  rfl

/-- The token of an event in its place among the bits. -/
theorem exists_bits_around {t : Token} {frames : List Frame}
    (h : bits.filterMap Bit.token? = (pre ++ .token t frames :: post).filterMap Event.token?) :
    ∃ before after, bits = before ++ .token (t.scanned frames) :: after ∧
      before.filterMap Bit.token? = pre.filterMap Event.token? ∧
      after.filterMap Bit.token? = post.filterMap Event.token? := by
  have hcons : (Event.token t frames :: post).filterMap Event.token? =
      t.scanned frames :: post.filterMap Event.token? := rfl
  rw [List.filterMap_append, hcons] at h
  obtain ⟨before, rest, rfl, hbefore, hrest⟩ := List.filterMap_eq_append_iff.mp h
  obtain ⟨skipped, b, after, rfl, hskipped, hb, hafter⟩ := List.filterMap_eq_cons_iff.mp hrest
  obtain rfl : b = .token (t.scanned frames) := by
    cases b with
    | token t' => exact congrArg Bit.token (Option.some.inj hb)
    | _ => exact nomatch hb
  refine ⟨before ++ skipped, after, by simp, ?_, hafter⟩
  rw [List.filterMap_append, List.filterMap_eq_nil_iff.mpr hskipped, List.append_nil, hbefore]

end Bits

namespace Fragment

/-- The text of a complete fragment whose render goes well is made of bits, among which are the
tokens that the render comes to, and it is bound to what these bits show. -/
theorem exists_bits_of_complete {f : Fragment} (hf : f.Complete .outside) {parameter : Value}
    {databaseId : Option String} {took : Bool} {ctx : Context}
    (h : f.render.run (Context.start parameter databaseId) = (.ok took, ctx)) :
    ∃ (events : List Event) (bits : List Bit),
      (f.read Event.reading).run (Context.start parameter databaseId) = (.ok events, ctx.bare) ∧
      bits.flatMap Bit.text = ctx.sql.toList ∧
      bits.filterMap Bit.token? = events.filterMap Event.token? ∧
      (Source.rendered f databaseId).bound parameter = .ok ⟨.ofList (bits.flatMap Bit.shown),
        events.filterMap Event.property?, parameter, ctx.bindings⟩ := by
  obtain ⟨events, hread, hbears⟩ := run_events h
  obtain ⟨bits, hstand, htext, htokens⟩ := hbears hf
  refine ⟨events, bits, hread, htext, htokens, ?_⟩
  rw [Source.bound, h]
  dsimp only
  rw [template_bits htext hstand, ← filterMap_property? htokens]
  rfl

/-- Escapes hold out as many scans as they have backslashes. In a complete fragment whose render
goes well, binding goes well too; the text that is written and the statement that it is bound to are
made of the same bits, with the tokens that the render comes to in their order. A token with more
backslashes than loops around it stands in the statement literally, without the backslashes that
were scanned away, and is no placeholder; so a token with one backslash in no loop is literal. Any
other token is a question mark there, and the statement has a property for it. -/
theorem bound_escaped {f : Fragment} (hf : f.Complete .outside) {parameter : Value}
    {databaseId : Option String} {took : Bool} {ctx : Context}
    (h : f.render.run (Context.start parameter databaseId) = (.ok took, ctx)) :
    ∃ (events : List Event) (bits : List Bit) (b : BoundSql),
      f.events? parameter databaseId = some events ∧
      (Source.rendered f databaseId).bound parameter = .ok b ∧
      ctx.sql.toList = bits.flatMap Bit.text ∧ b.sql.toList = bits.flatMap Bit.shown ∧
      b.properties = events.filterMap Event.property? ∧
      ∀ pre t frames post, events = pre ++ .token t frames :: post →
        ∃ before after, bits = before ++ .token (t.scanned frames) :: after ∧
          before.filterMap Bit.token? = pre.filterMap Event.token? ∧
          after.filterMap Bit.token? = post.filterMap Event.token? ∧
          (frames.length < t.slashes →
            (t.scanned frames).shown =
                List.replicate (t.slashes - frames.length - 1) '\\' ++ write t.content ∧
              (Event.token t frames).property? = none) ∧
          (t.slashes ≤ frames.length →
            (t.scanned frames).shown = ['?'] ∧ (Event.token t frames).property?.isSome) := by
  obtain ⟨events, bits, hread, htext, htokens, hbound⟩ := exists_bits_of_complete hf h
  refine ⟨events, bits, _, reading?_eq_some hread, hbound, htext.symm, String.toList_ofList, rfl, ?_⟩
  rintro pre t frames post rfl
  obtain ⟨before, after, rfl, hbefore, hafter⟩ := exists_bits_around htokens
  have hslashes := t.slashes_scanned frames
  refine ⟨before, after, rfl, hbefore, hafter, fun hlt => ?_, fun hle => ?_⟩
  · have hpos : 0 < (t.scanned frames).slashes := by omega
    refine ⟨?_, Token.property?_of_pos hpos⟩
    rw [Token.shown_of_pos hpos, hslashes, Token.content_scanned hlt.le]
  · have hzero : (t.scanned frames).slashes = 0 := by omega
    exact ⟨Token.shown_of_zero hzero, Option.isSome_of_mem (Token.property?_of_zero hzero)⟩

def idsLoop : Loop := ⟨"ids", some "id", none, "IN (", ")", ", ", false⟩

def labelledIds (slashes : Nat) : Fragment :=
  .foreach idsLoop
    (.text (.ofList (List.replicate slashes '\\' ++ "#\x7bid\x7d = #\x7bid\x7d".toList)))

def labelledQuery (slashes : Nat) : Fragment :=
  .sequence [.text "SELECT '\\#\x7blabel\x7d' FROM t",
    .trim .whereClause (.sequence [.text "AND id", labelledIds slashes])]

def twoIds : Value :=
  .ofPairs [("ids", .list [.int 4, .int 5])]

theorem complete_text {place : Place} {s : String}
    (h : ((bits? s.toList).map fun bits => bits.all (Bit.fits place)) = some true) :
    Placeholder.Complete place s := by
  obtain ⟨bits, hbits, hall⟩ := Option.map_eq_some_iff.mp h
  exact ⟨bits, hbits, List.all_eq_true.mp hall⟩

/-- With two backslashes the placeholders in the loop stay literal, as the one in no loop does with
a single backslash. -/
theorem bound_labelledQuery : (labelledQuery 2).Complete .outside ∧ ∃ took ctx,
    (labelledQuery 2).render.run (Context.start twoIds none) = (.ok took, ctx) ∧
    ∃ post b before after,
      (labelledQuery 2).events? twoIds none = some (.token ⟨1, "label".toList⟩ [] :: post) ∧
      (Source.rendered (labelledQuery 2) none).bound twoIds = .ok b ∧
      b.sql.toList = before ++ "#\x7blabel\x7d".toList ++ after := by
  have hcomplete : (labelledQuery 2).Complete .outside :=
    ⟨complete_text (by decide +kernel), ⟨Trim.quiet_of_isPlain Trim.isPlain_whereClause,
      complete_text (by decide +kernel), ⟨Loop.quiet_of_plain (by decide) (by decide) (by decide),
        complete_text (by decide +kernel)⟩, trivial⟩, trivial⟩
  obtain ⟨took, ctx, hrun⟩ : ∃ took ctx,
      (labelledQuery 2).render.run (Context.start twoIds none) = (.ok took, ctx) :=
    Render.exists_run_of_toBool (by decide +kernel)
  obtain ⟨events, bits, b, hevents, hbound, -, hsql, -, hplaces⟩ := bound_escaped hcomplete hrun
  have hhead : ((labelledQuery 2).events? twoIds none).bind List.head? =
      some (.token ⟨1, "label".toList⟩ []) := by decide +kernel
  rw [hevents, Option.bind_some] at hhead
  obtain ⟨post, rfl⟩ := List.head?_eq_some_iff.mp hhead
  obtain ⟨before, after, rfl, -, -, hliteral, -⟩ := hplaces [] _ _ post rfl
  obtain ⟨hshown, -⟩ := hliteral Nat.zero_lt_one
  refine ⟨hcomplete, took, ctx, hrun, post, b, before.flatMap Bit.shown, after.flatMap Bit.shown,
    hevents, hbound, ?_⟩
  rw [hsql, List.flatMap_append, List.flatMap_cons, Bit.shown, hshown, ← List.append_assoc]
  rfl

/-- With one backslash in a loop, an escaped placeholder ends as a question mark that asks for the
property that it was to show. -/
theorem bound_labelledIds : (labelledIds 1).Complete .outside ∧ ∃ events b,
    (labelledIds 1).events? twoIds none = some events ∧
    (Source.rendered (labelledIds 1) none).bound twoIds = .ok b ∧
    .token ⟨1, "id".toList⟩ [⟨idsLoop, 0, .int 0, .int 4⟩] ∈ events ∧
    b.sql = "IN (? = ?, ? = ?)" ∧ b.properties = ["id", "__frch_id_0", "id", "__frch_id_1"] ∧
    b.values = [.null, .int 4, .null, .int 5] := by
  have hcomplete : (labelledIds 1).Complete .outside :=
    ⟨Loop.quiet_of_plain (by decide) (by decide) (by decide), complete_text (by decide +kernel)⟩
  have hevents : ((labelledIds 1).events? twoIds none).map (·[1]?) =
      some (some (.token ⟨1, "id".toList⟩ [⟨idsLoop, 0, .int 0, .int 4⟩])) := by decide +kernel
  have hbound : ((Source.rendered (labelledIds 1) none).bound twoIds).toOption.map
      (fun b => (b.sql, b.properties, b.values)) =
        some ("IN (? = ?, ? = ?)", ["id", "__frch_id_0", "id", "__frch_id_1"],
          [.null, .int 4, .null, .int 5]) := by decide +kernel
  obtain ⟨events, hsome, htoken⟩ := Option.map_eq_some_iff.mp hevents
  obtain ⟨b, hok, hparts⟩ := exists_ok_of_toOption hbound
  obtain ⟨hsql, hrest⟩ := Prod.mk.inj hparts
  obtain ⟨hproperties, hvalues⟩ := Prod.mk.inj hrest
  exact ⟨hcomplete, events, b, hsome, hok, List.mem_of_getElem? htoken, hsql, hproperties, hvalues⟩

end Fragment

end SqlMapper
