import SqlMapper.Proofs.Sql.BoundNames

/-!
Reading additional parameters back. They are kept under whole names, but a placeholder looks for the
first segment of its path, so what is set under a dotted name decides no placeholder.
-/

namespace SqlMapper

open Text

section Segments

variable {name : String}

theorem firstSegment_of_undotted (h : '.' ∉ name.toList) : firstSegment name = name := by
  have hwhole : before '.' (name.toList ++ []) = name.toList := before_append h (.inl rfl)
  rw [List.append_nil] at hwhole
  rw [firstSegment, hwhole, String.ofList_toList]

/-- A first segment has no point, so it is no dotted name. -/
theorem firstSegment_ne_of_dotted (h : '.' ∈ name.toList) (path : String) :
    firstSegment path ≠ name := by
  rintro rfl
  rw [firstSegment, String.toList_ofList] at h
  exact not_mem_before '.' path.toList h

theorem Value.follow_of_undotted (h : '.' ∉ name.toList) (v : Value) : v.follow name = v := by
  have hnone : after? '.' name.toList = none := by
    have hend : (name.toList ++ []).dropWhile (· ≠ '.') = [] := dropWhile_append h (.inl rfl)
    rw [List.append_nil] at hend
    rw [after?, hend]
  rw [follow, hnone]

end Segments

namespace Value

def leading : List String → Value
  | [] => .map []
  | segment :: others => .map [(segment, leading others)]

theorem foldlM_step?_leading (path : List String) : path.foldlM step? (leading path) =
    some (.map []) := by
  induction path with
  | nil => rfl
  | cons segment others ih =>
    have hstep : step? (leading (segment :: others)) segment = some (leading others) := by
      rw [leading, step?, List.lookup_cons_self]
    rw [List.foldlM_cons, hstep]
    exact ih

end Value

/-- Among the parameter objects some answer a path that is not bound with null, others do not. -/
theorem exists_resolve_ne {bindings : Entries Value} {path : String}
    (h : bindings.lookup (firstSegment path) = none) :
    ∃ parameter, resolve bindings parameter path ≠ resolve bindings .null path := by
  refine ⟨Value.leading (Value.segments path), ?_⟩
  have hnull : resolve bindings .null path = .null := by
    unfold firstSegment at h
    unfold resolve
    dsimp only
    rw [h]
  -- At the end of the path there is an empty map, which is not null.
  have hfound : resolve bindings (Value.leading (Value.segments path)) path = .map [] := by
    have hlookup : (Value.leading (Value.segments path)).lookup? path = some (.map []) :=
      Value.foldlM_step?_leading _
    unfold firstSegment at h
    unfold resolve
    dsimp only
    rw [h, hlookup]
    cases Value.segments path with
    | nil => rfl
    | cons segment others => rfl
  rw [hnull, hfound]
  exact nofun

namespace BoundSql

def withParameter (parameter : Value) (b : BoundSql) : BoundSql :=
  { b with parameter := parameter }

def withoutAdditional (b : BoundSql) : BoundSql :=
  { b with additional := [] }

variable {b : BoundSql} {name path : String} {i : Nat}

theorem values_getElem? (h : b.properties[i]? = some path) :
    b.values[i]? = some (resolve b.additional b.parameter path) := by
  rw [values, List.getElem?_map, h, Option.map_some]

theorem lookup_setAdditional (b : BoundSql) (name other : String) (v : Value) :
    (b.setAdditional name v).additional.lookup other =
      if other = name then some v else b.additional.lookup other :=
  Entries.lookup_insert name other v b.additional

/-- The value of a question mark whose path begins with an additional parameter. -/
theorem values_of_hasAdditional (h : b.properties[i]? = some path) (hhas : b.hasAdditional path) :
    ∃ v, b.additional? (firstSegment path) = some v ∧
      ∀ parameter, (b.withParameter parameter).values[i]? = some (v.follow path) := by
  obtain ⟨v, hv⟩ := Option.isSome_iff_exists.mp hhas
  refine ⟨v, hv, ?_⟩
  intro parameter
  have hproperty : (b.withParameter parameter).properties[i]? = some path := h
  rw [values_getElem? hproperty]
  exact congrArg some (resolve_of_lookup hv parameter)

theorem lookup_of_not_hasAdditional (h : b.hasAdditional path = false) :
    b.additional.lookup (firstSegment path) = none :=
  Option.not_isSome_iff_eq_none.mp (Bool.eq_false_iff.mp h)

/-- What is set under a dotted name is found by that name and changes nothing else. -/
theorem setAdditional_of_dotted (hname : '.' ∈ name.toList) (v : Value) (b : BoundSql) :
    (∀ path, (b.setAdditional name v).hasAdditional path = b.hasAdditional path) ∧
      (b.setAdditional name v).values = b.values := by
  have hlookup (path : String) : (b.setAdditional name v).additional.lookup (firstSegment path) =
      b.additional.lookup (firstSegment path) := by
    rw [lookup_setAdditional, if_neg (firstSegment_ne_of_dotted hname path)]
  constructor
  · intro path
    exact congrArg Option.isSome (hlookup path)
  · apply List.map_congr_left
    intro path _
    exact resolve_eq_of_lookup (hlookup path) b.parameter

/-- What is set under a name without points is found by it and is the value of every question mark
for it. -/
theorem setAdditional_of_undotted (hname : '.' ∉ name.toList) (v : Value) (b : BoundSql) :
    (b.setAdditional name v).hasAdditional name ∧
      ∀ i : Nat, b.properties[i]? = some name → (b.setAdditional name v).values[i]? = some v := by
  have hlookup : (b.setAdditional name v).additional.lookup (firstSegment name) = some v := by
    rw [firstSegment_of_undotted hname, lookup_setAdditional, if_pos rfl]
  constructor
  · exact Option.isSome_iff_exists.mpr ⟨v, hlookup⟩
  · intro i hi
    have hproperty : (b.setAdditional name v).properties[i]? = some name := hi
    rw [values_getElem? hproperty, resolve_of_lookup hlookup, Value.follow_of_undotted hname]

/-- A value that is set is found again by its whole name. Under a name without points it is also the
value of every question mark for that name; under a dotted name it leaves all answers and all values
as they were. Whether a path has an additional parameter tells where the value of a question mark
comes from: from the additional parameter of its first segment and not from the parameter object, or
from the parameter object and not from the additional parameters. -/
theorem additional_read_back (b : BoundSql) (name : String) (v : Value) :
    (b.setAdditional name v).additional? name = some v ∧
    ('.' ∉ name.toList → (b.setAdditional name v).hasAdditional name ∧
      ∀ i : Nat, b.properties[i]? = some name → (b.setAdditional name v).values[i]? = some v) ∧
    ('.' ∈ name.toList →
      (∀ path, (b.setAdditional name v).hasAdditional path = b.hasAdditional path) ∧
      (b.setAdditional name v).values = b.values) ∧
    ∀ (i : Nat) (path : String), b.properties[i]? = some path →
      (b.hasAdditional path ↔
        ∀ parameter, (b.withParameter parameter).values[i]? = b.values[i]?) ∧
      (b.hasAdditional path → ∃ w, b.additional? (firstSegment path) = some w ∧
        b.values[i]? = some (w.follow path)) ∧
      (b.hasAdditional path = false → b.withoutAdditional.values[i]? = b.values[i]?) := by
  refine ⟨?_, fun hname => setAdditional_of_undotted hname v b,
    fun hname => setAdditional_of_dotted hname v b, ?_⟩
  · exact (lookup_setAdditional b name name v).trans (if_pos rfl)
  · intro i path hpath
    refine ⟨⟨?_, ?_⟩, ?_, ?_⟩
    · intro hhas parameter
      obtain ⟨w, -, hvalues⟩ := values_of_hasAdditional hpath hhas
      exact (hvalues parameter).trans (hvalues b.parameter).symm
    · intro hsame
      by_contra hnot
      -- Then the parameter object decides, and two of them differ here.
      have hnone := lookup_of_not_hasAdditional (Bool.eq_false_iff.mpr hnot)
      obtain ⟨parameter, hne⟩ := exists_resolve_ne hnone
      have heq := (hsame parameter).trans (hsame .null).symm
      have hproperty (p : Value) : (b.withParameter p).properties[i]? = some path := hpath
      rw [values_getElem? (hproperty parameter), values_getElem? (hproperty .null)] at heq
      exact hne (Option.some.inj heq)
    · intro hhas
      obtain ⟨w, hw, hvalues⟩ := values_of_hasAdditional hpath hhas
      exact ⟨w, hw, hvalues b.parameter⟩
    · intro hnot
      have hproperty : b.withoutAdditional.properties[i]? = some path := hpath
      rw [values_getElem? hpath, values_getElem? hproperty]
      have hnone : b.additional.lookup (firstSegment path) = List.lookup (firstSegment path) [] :=
        lookup_of_not_hasAdditional hnot
      exact congrArg some (resolve_eq_of_lookup hnone.symm b.parameter)

/-- A dotted name that is set and found, but neither counts as an additional parameter nor has any
effect on its question mark. -/
theorem additional_lost_userId :
    ((Source.ofText "SELECT #\x7buser.id\x7d").bind
      (·.bound (.map [("user", .map [("id", .int 1)])]))).toOption.map
        (fun b => let c := b.setAdditional "user.id" (.int 2)
          (c.hasAdditional "user.id", c.additional? "user.id", c.properties, c.values)) =
      some (false, some (.int 2), ["user.id"], [.int 1]) := by
  decide +kernel

end BoundSql
end SqlMapper
