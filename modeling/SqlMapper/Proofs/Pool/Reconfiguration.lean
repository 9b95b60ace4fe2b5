import Mathlib.Data.List.Nodup
import Mathlib.Data.String.Basic
import Mathlib.Logic.Function.Conjugate
import SqlMapper.Pool.Change
import SqlMapper.Proofs.Pool.Steps

/-!
Setting up data sources anew. Whether a property can be set does not depend on what was set before,
and no two keys set the same thing, so the order of the properties does not matter.
-/

namespace SqlMapper

namespace Entries

variable {α : Type} {k k' : String}

theorem insert_comm (hne : k ≠ k') (v v' : α) (es : Entries α) :
    insert k v (insert k' v' es) = insert k' v' (insert k v es) := by
  induction es with
  | nil => grind [insert]
  | cons e rest ih => grind [insert]

theorem insert_insert (k : String) (v v' : α) (es : Entries α) :
    insert k v (insert k v' es) = insert k v es := by
  induction es with
  | nil => simp [insert]
  | cons e rest ih => grind [insert]

end Entries

namespace Property

variable {σ ε : Type}

/-- Properties are set apart from each other. One that cannot be set fails in every state; any other
one changes the state in a way that belongs to its key. Changes under different keys commute, and
the same change made twice is made once. -/
structure SetsApart (set : σ → String × String → Except ε σ) (Sets : String → (σ → σ) → Prop) :
    Prop where
  uniform : ∀ x, (∃ e, ∀ s, set s x = .error e) ∨ ∃ f, Sets x.1 f ∧ ∀ s, set s x = .ok (f s)
  commute : ∀ {k k' f g}, k ≠ k' → Sets k f → Sets k' g → Function.Commute f g
  idempotent : ∀ {k f}, Sets k f → ∀ s, f (f s) = f s

/-- The state after properties, whichever error there may be, as a fold over states that may be
missing. -/
theorem toOption_foldlM (set : σ → String × String → Except ε σ) (xs : List (String × String))
    (s : σ) : (xs.foldlM set s).toOption =
      xs.foldl (fun state x => state.bind fun s => (set s x).toOption) (some s) := by
  -- Once a property could not be set, nothing more happens.
  have hfailed (ys : List (String × String)) :
      ys.foldl (fun state x => state.bind fun s => (set s x).toOption) none = none := by
    induction ys with
    | nil => rfl
    | cons y ys ih => exact ih
  induction xs generalizing s with
  | nil => rfl
  | cons x xs ih =>
    rw [List.foldlM_cons, List.foldl_cons, Option.bind_some]
    cases hset : set s x with
    | error e => exact (hfailed xs).symm
    | ok t => exact ih t

def IsUniform (set? : σ → Except ε (Option σ)) (Sets : (σ → σ) → Prop) : Prop :=
  (∃ e, ∀ s, set? s = .error e) ∨ (∀ s, set? s = .ok none) ∨
    ∃ f, Sets f ∧ ∀ s, set? s = .ok (some (f s))

theorem isUniform_set {Sets : (σ → σ) → Prop} {f : σ → σ} (hf : Sets f) :
    IsUniform (fun s => (.ok (some (f s)) : Except ε (Option σ))) Sets :=
  .inr (.inr ⟨f, hf, fun _ => rfl⟩)

theorem isUniform_read {α : Type} {set? : σ → Except Error (Option σ)}
    {Sets : String → (σ → σ) → Prop} {key : String} {make : α → σ → σ}
    (hmake : ∀ a, Sets key (make a)) (reading : String → Option α) (value : String)
    (hset : ∀ s, set? s = (read reading key value).map fun a => some (make a s)) :
    IsUniform set? (Sets key) := by
  cases hread : read reading key value with
  | error e =>
    left
    refine ⟨e, ?_⟩
    intro s
    rw [hset, hread]
    rfl
  | ok a =>
    right; right
    refine ⟨make a, hmake a, ?_⟩
    intro s
    rw [hset, hread]
    rfl

/-- Properties are uniform when those of some keys are and all other keys are unknown. -/
theorem isUniform_of_keys (set? : String → σ → Except ε (Option σ)) {Sets : String → (σ → σ) → Prop}
    (keys : List String) (hkeys : ∀ key ∈ keys, IsUniform (set? key) (Sets key)) {key : String}
    (hothers : key ∉ keys → ∀ s, set? key s = .ok none) : IsUniform (set? key) (Sets key) := by
  by_cases hkey : key ∈ keys
  · exact hkeys key hkey
  · exact .inr (.inl (hothers hkey))

theorem toList_of_driverName? {key name : String} (h : driverName? key = some name) :
    key.toList = "driver.".toList ++ name.toList := by
  unfold driverName? at h
  generalize "driver.".toList = start at h ⊢
  dsimp only at h
  split at h
  · rename_i hprefix
    obtain ⟨rest, hrest⟩ := List.isPrefixOf_iff_prefix.mp hprefix
    rw [← Option.some.inj h, String.toList_ofList, ← hrest, List.drop_left]
  · cases h

/-- Different keys of the server's own properties have different names. -/
theorem ne_of_driverName? {key key' name name' : String} (h : driverName? key = some name)
    (h' : driverName? key' = some name') (hne : key ≠ key') : name ≠ name' := by
  rintro rfl
  apply hne
  apply String.toList_injective
  rw [toList_of_driverName? h, toList_of_driverName? h']

namespace SetsApart

variable {set : σ → String × String → Except ε σ} {Sets : String → (σ → σ) → Prop}
  {xs ys : List (String × String)} {x y : String × String}

theorem comm (h : SetsApart set Sets) (hne : x.1 ≠ y.1) (s : σ) :
    ((set s x).toOption.bind fun t => (set t y).toOption) =
      (set s y).toOption.bind fun t => (set t x).toOption := by
  -- If one of the two cannot be set, it cannot be set first nor last.
  rcases h.uniform x with ⟨e, hx⟩ | ⟨f, hf, hx⟩
  · cases hy : set s y <;> simp [hx, Except.toOption]
  rcases h.uniform y with ⟨e, hy⟩ | ⟨g, hg, hy⟩
  · simp [hx, hy, Except.toOption]
  · have hfg : f (g s) = g (f s) := h.commute hne hf hg s
    simp [hx, hy, hfg, Except.toOption]

/-- Properties with different keys can be set in any order. -/
theorem foldlM_perm (h : SetsApart set Sets) (hkeys : (xs.map Prod.fst).Nodup) (hperm : ys.Perm xs)
    (s : σ) : (ys.foldlM set s).toOption = (xs.foldlM set s).toOption := by
  rw [toOption_foldlM, toOption_foldlM]
  apply hperm.foldl_eq'
  intro x hx y hy state
  cases state with
  | none => rfl
  | some s =>
    by_cases hsame : x = y
    · rw [hsame]
    have hne : x.1 ≠ y.1 := by
      intro hkey
      exact hsame (List.inj_on_of_nodup_map hkeys (hperm.mem_iff.mp hx) (hperm.mem_iff.mp hy) hkey)
    exact h.comm hne s

/-- What was set is set: setting one of the properties again changes nothing. -/
theorem set_again (h : SetsApart set Sets) (hkeys : (xs.map Prod.fst).Nodup) {s t : σ}
    (hset : xs.foldlM set s = .ok t) (hx : x ∈ xs) : set t x = .ok t := by
  -- It might as well have been set last.
  have hlast : (xs.erase x ++ [x]).Perm xs :=
    (List.perm_append_singleton x (xs.erase x)).trans (List.perm_cons_erase hx).symm
  have hfold := h.foldlM_perm hkeys hlast s
  rw [hset, List.foldlM_append] at hfold
  cases hrest : (xs.erase x).foldlM set s with
  | error e => simp [hrest, Except.toOption, bind, Except.bind] at hfold
  | ok u =>
    rcases h.uniform x with ⟨e, he⟩ | ⟨f, hf, hf'⟩
    · simp [hrest, he, Except.toOption, bind, Except.bind] at hfold
    · have ht : f u = t := by
        simpa [hrest, hf', Except.toOption, bind, Except.bind, pure, Except.pure] using hfold
      rw [hf', ← ht, h.idempotent hf]

end SetsApart
end Property

namespace ConnectionSettings

inductive Sets : String → (ConnectionSettings → ConnectionSettings) → Prop where
  | url (v : String) : Sets "url" fun s => { s with url := v }
  | username (v : String) : Sets "username" fun s => { s with username := some v }
  | password (v : String) : Sets "password" fun s => { s with password := some v }
  | autoCommit (on : Bool) : Sets "autoCommit" fun s => { s with autoCommit := some on }
  | isolation (level : Isolation) :
    Sets "defaultTransactionIsolationLevel" fun s => { s with isolation := some level }
  | networkTimeout (d : Duration) :
    Sets "defaultNetworkTimeout" fun s => { s with networkTimeout := some d }
  | property {key name : String} (hname : Property.driverName? key = some name) (v : String) :
    Sets key fun s => { s with properties := Entries.insert name v s.properties }

/-- What two different keys set can be set in either order. -/
theorem Sets.commute {k k' : String} {f g : ConnectionSettings → ConnectionSettings} (hne : k ≠ k')
    (hf : Sets k f) (hg : Sets k' g) : Function.Commute f g := by
  cases hf with
  | property hname v =>
    cases hg with
    | property hname' v' =>
      -- They share a field, in which they stand under different names.
      intro s
      have hnames := Property.ne_of_driverName? hname hname' hne
      simp only [Entries.insert_comm hnames]
    | _ => exact fun _ => rfl
  | _ =>
    cases hg
    all_goals first | exact fun _ => rfl | exact absurd rfl hne

theorem Sets.idempotent {k : String} {f : ConnectionSettings → ConnectionSettings} (hf : Sets k f)
    (s : ConnectionSettings) : f (f s) = f s := by
  cases hf with
  | property hname v => simp only [Entries.insert_insert]
  | _ => rfl

def ownKeys : List String :=
  ["url", "username", "password", "autoCommit", "defaultTransactionIsolationLevel",
    "defaultNetworkTimeout"]

/-- Whether a setting can be set depends on nothing but its key and its value. -/
theorem isUniform_setProperty? (key value : String) :
    Property.IsUniform (fun s : ConnectionSettings => s.setProperty? key value) (Sets key) := by
  cases hname : Property.driverName? key with
  | some name =>
    unfold setProperty?
    rw [hname]
    exact Property.isUniform_set (.property hname value)
  | none =>
    refine Property.isUniform_of_keys (fun k (s : ConnectionSettings) => s.setProperty? k value)
      ownKeys ?_ ?_
    · simp only [ownKeys, List.forall_mem_cons]
      exact ⟨Property.isUniform_set (.url value), Property.isUniform_set (.username value),
        Property.isUniform_set (.password value),
        Property.isUniform_read .autoCommit Property.bool? value fun _ => rfl,
        Property.isUniform_read .isolation (fun v => (Isolation.ofText v).toOption) value fun _ => rfl,
        Property.isUniform_read .networkTimeout Property.millis? value fun _ => rfl,
        List.forall_mem_nil _⟩
    · intro hother s
      unfold setProperty?
      rw [hname]
      dsimp only
      split
      all_goals first | exact absurd (by decide) hother | rfl

theorem setsApart : Property.SetsApart (σ := ConnectionSettings)
    (fun s p => do
      match ← s.setProperty? p.1 p.2 with
      | some s => return s
      | none => throw (Property.unknown p.1)) Sets where
  uniform x := by
    rcases isUniform_setProperty? x.1 x.2 with ⟨e, he⟩ | hnone | ⟨f, hf, hset⟩
    · refine .inl ⟨e, fun s => ?_⟩
      rw [show s.setProperty? x.1 x.2 = .error e from he s]
      rfl
    · refine .inl ⟨Property.unknown x.1, fun s => ?_⟩
      rw [show s.setProperty? x.1 x.2 = .ok none from hnone s]
      rfl
    · refine .inr ⟨f, hf, fun s => ?_⟩
      rw [show s.setProperty? x.1 x.2 = .ok (some (f s)) from hset s]
      rfl
  commute := Sets.commute
  idempotent := Sets.idempotent

end ConnectionSettings

namespace PoolConfig

inductive Sets : String → (PoolConfig → PoolConfig) → Prop where
  | maxActive (n : UInt64) : Sets "poolMaximumActiveConnections" fun c => { c with maxActive := n }
  | maxIdle (n : UInt64) : Sets "poolMaximumIdleConnections" fun c => { c with maxIdle := n }
  | maxCheckoutTime (d : Duration) :
    Sets "poolMaximumCheckoutTime" fun c => { c with maxCheckoutTime := d }
  | timeToWait (d : Duration) : Sets "poolTimeToWait" fun c => { c with timeToWait := d }
  | badTolerance (n : UInt64) :
    Sets "poolMaximumLocalBadConnectionTolerance" fun c => { c with badTolerance := n }
  | pings (on : Bool) : Sets "poolPingEnabled" fun c => { c with pings := on }
  | pingQuery (query : String) : Sets "poolPingQuery" fun c => { c with pingQuery := query }
  | pingNotUsedFor (d : Duration) :
    Sets "poolPingConnectionsNotUsedFor" fun c => { c with pingNotUsedFor := d }

theorem Sets.commute {k k' : String} {f g : PoolConfig → PoolConfig} (hne : k ≠ k') (hf : Sets k f)
    (hg : Sets k' g) : Function.Commute f g := by
  cases hf
  all_goals
    cases hg
    all_goals first | exact fun _ => rfl | exact absurd rfl hne

theorem Sets.idempotent {k : String} {f : PoolConfig → PoolConfig} (hf : Sets k f)
    (c : PoolConfig) : f (f c) = f c := by
  cases hf <;> rfl

def limitKeys : List String :=
  ["poolMaximumActiveConnections", "poolMaximumIdleConnections", "poolMaximumCheckoutTime",
    "poolTimeToWait", "poolMaximumLocalBadConnectionTolerance", "poolPingEnabled", "poolPingQuery",
    "poolPingConnectionsNotUsedFor"]

theorem isUniform_setProperty? (key value : String) :
    Property.IsUniform (fun c : PoolConfig => c.setProperty? key value) (Sets key) := by
  refine Property.isUniform_of_keys (fun k (c : PoolConfig) => c.setProperty? k value)
    limitKeys ?_ ?_
  · simp only [limitKeys, List.forall_mem_cons]
    exact ⟨Property.isUniform_read .maxActive Text.uint64? value fun _ => rfl,
      Property.isUniform_read .maxIdle Text.uint64? value fun _ => rfl,
      Property.isUniform_read .maxCheckoutTime Property.millis? value fun _ => rfl,
      Property.isUniform_read .timeToWait Property.millis? value fun _ => rfl,
      Property.isUniform_read .badTolerance Text.uint64? value fun _ => rfl,
      Property.isUniform_read .pings Property.bool? value fun _ => rfl,
      Property.isUniform_set (.pingQuery value),
      Property.isUniform_read .pingNotUsedFor Property.millis? value fun _ => rfl,
      List.forall_mem_nil _⟩
  · intro hother c
    unfold setProperty?
    split
    all_goals first | exact absurd (by decide) hother | rfl

inductive SetsAny (key : String) :
    (PoolConfig × ConnectionSettings → PoolConfig × ConnectionSettings) → Prop where
  | setting {f : ConnectionSettings → ConnectionSettings} (hf : ConnectionSettings.Sets key f) :
    SetsAny key (Prod.map id f)
  | limit {f : PoolConfig → PoolConfig} (hf : Sets key f) : SetsAny key (Prod.map f id)

/-- A property that the connection settings do not know is looked for among the limits. -/
theorem setAnyProperty_of_none {both : PoolConfig × ConnectionSettings} {x : String × String}
    {config? : Except Error (Option PoolConfig)}
    (hsettings : both.2.setProperty? x.1 x.2 = .ok none)
    (hconfig : both.1.setProperty? x.1 x.2 = config?) :
    setAnyProperty both x = config?.bind fun found =>
      match found with
      | some config => .ok (config, both.2)
      | none => .error (Property.unknown x.1) := by
  unfold setAnyProperty
  rw [hsettings, ← hconfig]
  rfl

theorem setsApart : Property.SetsApart setAnyProperty SetsAny where
  uniform x := by
    rcases ConnectionSettings.isUniform_setProperty? x.1 x.2 with ⟨e, he⟩ | hnone | ⟨f, hf, hset⟩
    · refine .inl ⟨e, fun both => ?_⟩
      unfold setAnyProperty
      rw [show both.2.setProperty? x.1 x.2 = .error e from he both.2]
      rfl
    · -- Not among the settings: whatever becomes of it happens among the limits.
      rcases isUniform_setProperty? x.1 x.2 with ⟨e, he⟩ | hnone' | ⟨f, hf, hset⟩
      · exact .inl ⟨e, fun both => setAnyProperty_of_none (hnone both.2) (he both.1)⟩
      · exact .inl ⟨_, fun both => setAnyProperty_of_none (hnone both.2) (hnone' both.1)⟩
      · exact .inr ⟨_, .limit hf, fun both =>
          setAnyProperty_of_none (hnone both.2) (hset both.1)⟩
    · refine .inr ⟨_, .setting hf, fun both => ?_⟩
      unfold setAnyProperty
      rw [show both.2.setProperty? x.1 x.2 = .ok (some (f both.2)) from hset both.2]
      rfl
  commute hne hf hg := by
    intro both
    cases hf with
    | setting hf =>
      cases hg with
      | setting hg => exact congrArg (Prod.mk both.1) (hf.commute hne hg both.2)
      | limit hg => rfl
    | limit hf =>
      cases hg with
      | setting hg => rfl
      | limit hg => exact congrArg (·, both.2) (hf.commute hne hg both.1)
  idempotent hf both := by
    cases hf with
    | setting hf => exact congrArg (Prod.mk both.1) (hf.idempotent both.2)
    | limit hf => exact congrArg (·, both.2) (hf.idempotent both.1)

end PoolConfig

namespace Pool

variable {ω : Type} [Server ω]

def setup (p : Pool) : PoolConfig × ConnectionSettings := (p.config, p.settings)

theorem setup_doAll (chores : List Chore) (p : Pool) (w : ω) :
    (p.doAll chores w).1.setup = p.setup := by
  unfold doAll
  -- On the chores, for any pool: none of them touches what the pool is set up by.
  induction chores generalizing p w with
  | nil => rfl
  | cons chore chores ih =>
    rw [List.foldl_cons]
    calc
      _ = (p.doChore chore w).1.setup := ih (p.doChore chore w).1 (p.doChore chore w).2
      _ = p.setup := by cases chore <;> rfl

theorem setup_forceCloseAll (p : Pool) (w : ω) : (p.forceCloseAll w).1.setup = p.setup := by
  unfold forceCloseAll
  rw [tearDown_eq]
  exact setup_doAll _ _ w

/-- A pool takes over limits and settings with which it can work. By others it is left as it was. -/
theorem reconfigure_cases (config : PoolConfig) (settings : ConnectionSettings) (p : Pool) (w : ω) :
    (∃ e, p.reconfigure config settings w = (.error e, p, w)) ∨
      (p.reconfigure config settings w).1 = .ok () ∧
        (p.reconfigure config settings w).2.1.setup = (config, settings) := by
  unfold reconfigure adopt
  cases config.validate with
  | error e => exact .inl ⟨e, rfl⟩
  | ok u =>
    refine .inr ⟨rfl, ?_⟩
    exact setup_forceCloseAll { p with config := config, settings := settings, tallies := .zero } w

/-- Properties are all taken over, or the pool is left as it was. -/
theorem setProperties_cases (properties : List (String × String)) (p : Pool) (w : ω) :
    (∃ e, p.setProperties properties w = (.error e, p, w)) ∨
      (p.setProperties properties w).1 = .ok () ∧
        PoolConfig.setProperties properties p.setup =
          .ok (p.setProperties properties w).2.1.setup := by
  unfold setProperties
  change _ ∨ _ ∧ PoolConfig.setProperties properties (p.config, p.settings) = _
  cases PoolConfig.setProperties properties (p.config, p.settings) with
  | error e => exact .inl ⟨e, rfl⟩
  | ok both =>
    rcases reconfigure_cases both.1 both.2 p w with hkept | ⟨hok, hsetup⟩
    · exact .inl hkept
    · exact .inr ⟨hok, by rw [hsetup]⟩

theorem change_cases (change : PoolChange) (p : Pool) (w : ω) :
    (∃ e, p.change change w = (.error e, p, w)) ∨
      (p.change change w).1 = .ok () ∧
        (p.change change w).2.1.setup = change.apply p.setup :=
  reconfigure_cases (change.apply p.setup).1 (change.apply p.setup).2 p w

/-- What becomes of a pool does not depend on the order of its properties. -/
theorem setProperties_perm {properties order : List (String × String)}
    (hkeys : (properties.map Prod.fst).Nodup) (horder : order.Perm properties) (p : Pool) (w : ω) :
    ((p.setProperties order w).1.toOption, (p.setProperties order w).2) =
      ((p.setProperties properties w).1.toOption, (p.setProperties properties w).2) := by
  have hsame := PoolConfig.setsApart.foldlM_perm hkeys horder (p.config, p.settings)
  change (PoolConfig.setProperties order _).toOption =
    (PoolConfig.setProperties properties _).toOption at hsame
  unfold setProperties
  cases horder : PoolConfig.setProperties order (p.config, p.settings) with
  | error e =>
    cases hgiven : PoolConfig.setProperties properties (p.config, p.settings) with
    | error e' => rfl
    | ok both => simp [horder, hgiven, Except.toOption] at hsame
  | ok both =>
    cases hgiven : PoolConfig.setProperties properties (p.config, p.settings) with
    | error e' => simp [horder, hgiven, Except.toOption] at hsame
    | ok both' =>
      have hboth : both = both' := by simpa [horder, hgiven, Except.toOption] using hsame
      rw [hboth]

theorem wholly_or_not {α : Type} {r : Except Error Unit × α} {a : α} {Whole : Prop}
    (hcases : (∃ e, r = (.error e, a)) ∨ r.1 = .ok () ∧ Whole) :
    (∀ e, r.1 = .error e → r.2 = a) ∧ (r.1 = .ok () → Whole) := by
  rcases hcases with ⟨e, rfl⟩ | ⟨hok, hwhole⟩
  · exact ⟨fun _ _ => rfl, nofun⟩
  · rw [hok]
    exact ⟨nofun, fun _ => hwhole⟩

/-- The properties of a map, which has no key twice, come to the same in every order, for single
connections and for a pool. A pool that refuses properties, or any other change, is left as it was,
and nothing was asked of its server; one that does not refuse them has all of them. -/
theorem reconfigures_wholly_or_not {properties order : List (String × String)}
    (hkeys : (properties.map Prod.fst).Nodup) (horder : order.Perm properties) :
    (∀ settings : ConnectionSettings,
      (settings.setProperties order).toOption = (settings.setProperties properties).toOption) ∧
    ∀ (p : Pool) (w : ω),
      ((p.setProperties order w).1.toOption, (p.setProperties order w).2) =
        ((p.setProperties properties w).1.toOption, (p.setProperties properties w).2) ∧
      (∀ e, (p.setProperties properties w).1 = .error e →
        (p.setProperties properties w).2 = (p, w)) ∧
      ((p.setProperties properties w).1 = .ok () →
        ∀ property ∈ properties, PoolConfig.setAnyProperty
          (p.setProperties properties w).2.1.setup property =
            .ok (p.setProperties properties w).2.1.setup) ∧
      ∀ change : PoolChange,
        (∀ e, (p.change change w).1 = .error e → (p.change change w).2 = (p, w)) ∧
        ((p.change change w).1 = .ok () →
          (p.change change w).2.1.setup = change.apply p.setup) := by
  refine ⟨ConnectionSettings.setsApart.foldlM_perm hkeys horder, fun p w => ?_⟩
  have hproperties := wholly_or_not (setProperties_cases properties p w)
  refine ⟨setProperties_perm hkeys horder p w, hproperties.1, ?_, ?_⟩
  · intro hok property hproperty
    exact PoolConfig.setsApart.set_again hkeys (hproperties.2 hok) hproperty
  · intro change
    exact wholly_or_not (change_cases change p w)

/-- A ping that is asked for without a query. The order decides which of them is set first, and what
is wrong comes out at the end. -/
def blankPing : List (String × String) :=
  [("poolPingEnabled", "true"), ("poolMaximumIdleConnections", "1"), ("poolPingQuery", " "),
    ("driver.schema", "app"), ("driver.url", "x"), ("url", "y")]

theorem reconfigures_wholly_or_not_blankPing :
    (blankPing.map Prod.fst).Nodup ∧ blankPing.reverse.Perm blankPing ∧
      ((start (.ofUrl "") .standard).setProperties blankPing.reverse (⟨0⟩ : Willing)).2 =
        (start (.ofUrl "") .standard, ⟨0⟩) := by
  have hkeys : (blankPing.map Prod.fst).Nodup := by decide
  have horder : blankPing.reverse.Perm blankPing := blankPing.reverse_perm
  have hpool := (reconfigures_wholly_or_not (ω := Willing) hkeys horder).2
    (start (.ofUrl "") .standard) ⟨0⟩
  refine ⟨hkeys, horder, ?_⟩
  have hrefused : ((start (.ofUrl "") .standard).setProperties blankPing (⟨0⟩ : Willing)).1 =
      .error (.config "ping_query must be set when ping is enabled") := by
    rfl
  rw [congrArg Prod.snd hpool.1]
  exact hpool.2.1 _ hrefused

end Pool
end SqlMapper
