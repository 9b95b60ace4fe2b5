import SqlMapper.Execution.Executor

/-!
What the key of a query says about the query. A text as the last value, without an environment,
looks like an environment behind the other values.
-/

namespace SqlMapper

namespace Executor

theorem ofUInt64_inj {m n : UInt64} (h : Value.ofUInt64 m = Value.ofUInt64 n) : m = n := by
  have hsigned : m.toInt64 = n.toInt64 := Value.int.inj h
  calc m = m.toInt64.toUInt64 := (UInt64.toUInt64_toInt64 m).symm
    _ = n.toInt64.toUInt64 := congrArg Int64.toUInt64 hsigned
    _ = n := UInt64.toUInt64_toInt64 n

variable {environment environment' : Option String} {s s' : Statement} {b b' : BoundSql}
  {bounds bounds' : RowBounds}

def keyTail (values : List Value) (environment : Option String) : List Value :=
  values ++ (environment.map Value.text).toList

/-- Four components of a key come first, whatever values there are. -/
theorem directKey_inj_iff :
    directKey environment s b bounds = directKey environment' s' b' bounds' ↔
      s.id = s'.id ∧ bounds.offset = bounds'.offset ∧ bounds.limit = bounds'.limit ∧
        b.sql = b'.sql ∧ keyTail b.values environment = keyTail b'.values environment' := by
  have hkey (environment : Option String) (s : Statement) (b : BoundSql) (bounds : RowBounds) :
      directKey environment s b bounds =
        ⟨.text s.id :: .ofUInt64 bounds.offset :: .ofUInt64 bounds.limit :: .text b.sql ::
          keyTail b.values environment⟩ := by
    simp [directKey, keyTail]
  rw [hkey, hkey, CacheKey.mk.injEq, List.cons.injEq, List.cons.injEq, List.cons.injEq,
    List.cons.injEq, Value.text.injEq, Value.text.injEq]
  constructor
  · rintro ⟨hid, hoffset, hlimit, hsql, htail⟩
    exact ⟨hid, ofUInt64_inj hoffset, ofUInt64_inj hlimit, hsql, htail⟩
  · rintro ⟨hid, hoffset, hlimit, hsql, htail⟩
    exact ⟨hid, congrArg _ hoffset, congrArg _ hlimit, hsql, htail⟩

/-- The values and the environment can be told from what stands in a key, unless one of two keys has
no environment and a last value that reads like the environment of the other one. -/
theorem keyTail_eq_iff {vs ws : List Value} :
    keyTail vs environment = keyTail ws environment' ↔
      vs = ws ∧ environment = environment' ∨
        (∃ name, environment = some name ∧ environment' = none ∧ ws = vs ++ [.text name]) ∨
        ∃ name, environment = none ∧ environment' = some name ∧ vs = ws ++ [.text name] := by
  cases environment with
  | none =>
    cases environment' with
    | none => simp [keyTail]
    | some name => simp [keyTail]
  | some name =>
    cases environment' with
    | none => simp [keyTail, eq_comm]
    | some name' => simp [keyTail]

/-- A key tells the statement, the bounds and the text of a query, and its values and environment
with one exception: without an environment, a text as the last value passes for the environment of
another executor. So two executors of which both have an environment, or neither, make equal keys
for the same queries only. This holds for any hash of components. -/
theorem directKey_eq_iff (hash : Value → UInt64) (environment environment' : Option String)
    (s s' : Statement) (b b' : BoundSql) (bounds bounds' : RowBounds) :
    RunningKey.ofComponents hash (directKey environment s b bounds).components =
        RunningKey.ofComponents hash (directKey environment' s' b' bounds').components ↔
      s.id = s'.id ∧ bounds.offset = bounds'.offset ∧ bounds.limit = bounds'.limit ∧
        b.sql = b'.sql ∧
        (b.values = b'.values ∧ environment = environment' ∨
          (∃ name, environment = some name ∧ environment' = none ∧
            b'.values = b.values ++ [.text name]) ∨
          ∃ name, environment = none ∧ environment' = some name ∧
            b.values = b'.values ++ [.text name]) := by
  have hcomponents {k k' : CacheKey} : k.components = k'.components ↔ k = k' := by
    rw [CacheKey.mk.injEq]
  rw [RunningKey.ofComponents_inj, hcomponents, directKey_inj_iff, keyTail_eq_iff]

def byEnvironment : Statement :=
  .standard "users.find" .select <| .rendered
    (.choose [(⟨"env != null", .compare (.path "env") .ne (.literal .null)⟩,
      .text "SELECT * FROM users WHERE env = #\x7benv\x7d")]
      (some (.text "SELECT * FROM users WHERE env = ?"))) none

/-- An executor of the environment `prod` and one without an environment make the same key, for
queries with different values. -/
theorem directKey_eq_of_environment :
    ∃ b b', byEnvironment.source.bound .null = .ok b ∧
      byEnvironment.source.bound (.ofPairs [("env", .text "prod")]) = .ok b' ∧
      b.values = [] ∧ b'.values = [.text "prod"] ∧
      ∀ hash, RunningKey.ofComponents hash (directKey (some "prod") byEnvironment b .all).components =
        RunningKey.ofComponents hash (directKey none byEnvironment b' .all).components := by
  let sql := "SELECT * FROM users WHERE env = ?"
  let parameter : Value := .ofPairs [("env", .text "prod")]
  have hbound {v : Value} {b : BoundSql}
      (h : (byEnvironment.source.bound v).toOption = some b) : byEnvironment.source.bound v = .ok b := by
    cases hb : byEnvironment.source.bound v with
    | error e =>
      rw [hb] at h
      exact nomatch h
    | ok b' =>
      rw [hb] at h
      exact congrArg _ (Option.some.inj h)
  refine ⟨⟨sql, [], .null, (Context.start .null none).bindings⟩,
    ⟨sql, ["env"], parameter, (Context.start parameter none).bindings⟩,
    hbound (by decide +kernel), hbound (by decide +kernel), rfl, by decide +kernel, ?_⟩
  -- What stands for the environment in one key is the value in the other one.
  have hkeys : (directKey (some "prod") byEnvironment
        ⟨sql, [], .null, (Context.start .null none).bindings⟩ .all).components =
      (directKey none byEnvironment
        ⟨sql, ["env"], parameter, (Context.start parameter none).bindings⟩ .all).components := by
    decide +kernel
  exact fun hash => congrArg _ hkeys

end Executor
end SqlMapper
