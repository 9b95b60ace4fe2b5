import SqlMapper.Proofs.Sql.BoundNames
import SqlMapper.Proofs.Sql.Keywords

/-!
Plain text as a fixed source and as a fragment that is rendered. Both have the same template; they
differ only in the placeholders that begin with a name a render binds by itself.
-/

namespace SqlMapper

open Text

namespace Text

theorem trim_trim (s : String) : trim (trim s) = trim s := by
  by_cases h : trimChars s.toList = []
  · have hnil : trim s = "" := by rw [trim, h]
    rw [hnil]
    rfl
  · have htrimmed : IsTrimmed (trim s).toList := by
      rw [toList_trim]
      exact .of_trimChars h
    exact htrimmed.trim_eq

theorem trim_of_isBlankText {s : String} (h : isBlankText s) : trim s = "" := by
  rw [trim, (trimChars_eq_nil_iff _).mpr h]

end Text

namespace Context

/-- A text in a context without any other text is the statement, trimmed. -/
theorem sql_append_start (text : String) (parameter : Value) (databaseId : Option String) :
    ((start parameter databaseId).append text).sql = trim text := by
  unfold append
  split
  · rename_i hblank
    rw [trim_of_isBlankText hblank]
    rfl
  · change trim (joined [trim text]) = trim text
    rw [joined, String.intercalate_singleton, trim_trim]

theorem bindings_append (text : String) (ctx : Context) :
    (ctx.append text).bindings = ctx.bindings := by
  unfold append
  split
  · rfl
  · rfl

theorem lookup_bindings_start (parameter : Value) (databaseId : Option String) (name : String) :
    (start parameter databaseId).bindings.lookup name =
      if name = databaseName then some (databaseValue databaseId)
      else if name = parameterName then some parameter else none := by
  simp only [start, Entries.ofList, List.foldl_cons, List.foldl_nil, Entries.lookup_insert,
    List.lookup_nil]

end Context

/-- Below null there is nothing. -/
theorem Value.follow_null (path : String) : Value.null.follow path = .null := by
  unfold follow
  split
  · rfl
  · rename_i rest _
    rw [lookup?]
    cases segments (.ofList rest) with
    | nil => rfl
    | cons segment others => rfl

namespace Source

/-- Rendering a text adds to its template what is bound before anything is rendered. -/
theorem bound_rendered_text (sql : String) (parameter : Value) (databaseId : Option String) :
    (rendered (.text sql) databaseId).bound parameter =
      (Placeholder.template (trim sql)).map fun t =>
        { BoundSql.ofTemplate t parameter with
          additional := (Context.start parameter databaseId).bindings } := by
  have hrun : (Fragment.render (.text sql)).run (Context.start parameter databaseId) =
      (.ok (!isBlankText sql), (Context.start parameter databaseId).append sql) := rfl
  rw [bound, hrun]
  dsimp only
  rw [Context.sql_append_start, Context.bindings_append]

/-- A plain text as a fixed source and as a rendered fragment, without a database id. Both fail with
the same error, or both give a statement with the same text and the same properties. The fixed one
looks every path up in the parameter alone, and so has the same value as the rendered one for each
path that does not begin with a name that a render binds by itself. Of those that do, the rendered
statement takes a path that begins with the parameter's name below the parameter object, and has
null for one that begins with the database's name. -/
theorem bound_text_agrees (sql : String) (parameter : Value) :
    match (ofText sql).bind (·.bound parameter), (rendered (.text sql) none).bound parameter with
    | .error e, .error e' => e = e'
    | .ok direct, .ok dynamic =>
      direct.sql = dynamic.sql ∧ direct.properties = dynamic.properties ∧
      direct.values.length = direct.properties.length ∧
      ∀ (i : Nat) (path : String), direct.properties[i]? = some path →
        direct.values[i]? = some (resolve [] parameter path) ∧
        (firstSegment path ∉ [Context.parameterName, Context.databaseName] →
          direct.values[i]? = dynamic.values[i]?) ∧
        (firstSegment path = Context.parameterName →
          dynamic.values[i]? = some (parameter.follow path)) ∧
        (firstSegment path = Context.databaseName → dynamic.values[i]? = some .null)
    | _, _ => False := by
  rw [bound_rendered_text, ofText]
  cases Placeholder.template (trim sql) with
  | error e => rfl
  | ok t =>
    refine ⟨rfl, rfl, List.length_map _, fun i path hpath => ?_⟩
    have hdirect : (t.properties.map (resolve [] parameter))[i]? =
        some (resolve [] parameter path) := by
      rw [List.getElem?_map]
      exact congrArg _ hpath
    have hdynamic : (t.properties.map (resolve (Context.start parameter none).bindings parameter))[i]? =
        some (resolve (Context.start parameter none).bindings parameter path) := by
      rw [List.getElem?_map]
      exact congrArg _ hpath
    have hlookup := Context.lookup_bindings_start parameter none (firstSegment path)
    have hdistinct : Context.parameterName ≠ Context.databaseName := by decide
    refine ⟨hdirect, fun hother => ?_, fun hname => ?_, fun hname => ?_⟩
    · simp only [List.mem_cons, List.not_mem_nil, or_false, not_or] at hother
      rw [if_neg hother.2, if_neg hother.1] at hlookup
      have hfree : (Context.start parameter none).bindings.lookup (firstSegment path) =
          List.lookup (firstSegment path) [] := hlookup
      rw [resolve_eq_of_lookup hfree] at hdynamic
      exact hdirect.trans hdynamic.symm
    · rw [if_neg (hname.trans_ne hdistinct), if_pos hname] at hlookup
      rwa [resolve_of_lookup hlookup] at hdynamic
    · rw [if_pos hname] at hlookup
      rwa [resolve_of_lookup hlookup, Context.databaseValue, Value.follow_null]
        at hdynamic

/-- The parameter object by its name: null in a fixed text, and its property in a rendered one. -/
theorem bound_text_parameterName :
    ((ofText "SELECT #\x7b_parameter.id\x7d").bind
        (·.bound (.map [("id", .int 7)]))).toOption.map BoundSql.values = some [.null] ∧
      ((rendered (.text "SELECT #\x7b_parameter.id\x7d") none).bound
        (.map [("id", .int 7)])).toOption.map BoundSql.values = some [.int 7] := by
  have htemplate : Placeholder.template (trim "SELECT #\x7b_parameter.id\x7d") =
      .ok ⟨"SELECT ?", ["_parameter.id"]⟩ := by cbv
  rw [ofText, bound_rendered_text, htemplate]
  decide

end Source
end SqlMapper
