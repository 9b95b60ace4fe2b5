import SqlMapper.Proofs.Pool.Steps

/-!
Who may use which physical connection. A title is a wrapper together with its connection; no two
titles share a wrapper or a connection, and exactly the wrappers of the titles are live.
-/

namespace SqlMapper

open Ledger

def Slot.title (slot : Slot) : Nat × Physical := (slot.wrapper, slot.physical)

namespace Inventory

def titlesOf (active idle : List Slot) (candidates : Multiset Candidate) :
    Multiset (Nat × Physical) :=
  ↑(active.map Slot.title) + ↑(idle.map Slot.title) + candidates.map (·.slot.title)

def titles (v : Inventory) : Multiset (Nat × Physical) := titlesOf v.active v.idle v.candidates

def places (v : Inventory) : Multiset Nat :=
  v.titles.map (·.2.connection) + v.condemned.map (·.physical.connection)

/-- What a transfer can do to the titles, the live wrappers and the connections. A connection that
leaves its place is closed, and so is a new one that gets none. -/
inductive Retitling (v v' : Inventory) : Prop where
  | opened (htitles : v'.titles =
      (v.wrappers + 1, ⟨v.physicals + 1, v.openings.length⟩) ::ₘ v.titles)
    (hplaces : v'.places = v.openings.length ::ₘ v.places)
    (hlive : v'.live = (v.wrappers + 1) :: v.live)
    (hwrappers : v'.wrappers = v.wrappers + 1) (hphysicals : v'.physicals = v.physicals + 1)
    (hopenings : v'.openings.length = v.openings.length + 1)
  | renewed {wrapper : Nat} {physical : Physical} {rest : Multiset (Nat × Physical)}
    (hbefore : v.titles = (wrapper, physical) ::ₘ rest)
    (htitles : v'.titles = (v.wrappers + 1, physical) ::ₘ rest)
    (hplaces : v'.places = v.places)
    (hlive : v'.live = (v.wrappers + 1) :: v.live.filter (· != wrapper))
    (hwrappers : v'.wrappers = v.wrappers + 1) (hphysicals : v'.physicals = v.physicals)
    (hopenings : v'.openings = v.openings)
  | removed (gone : List (Nat × Physical)) (htitles : v.titles = ↑gone + v'.titles)
    (hplaces : v'.places = v.places ∨
      ∃ n, v.places = n ::ₘ v'.places ∧ isClosed n v'.entries = true)
    (hlive : v'.live = v.live.filter fun x => !(gone.map (·.1)).contains x)
    (hwrappers : v'.wrappers = v.wrappers) (hphysicals : v'.physicals = v.physicals)
    (hopenings : v.openings.length ≤ v'.openings.length)
    (hnew : ∀ n < v'.openings.length, v.openings.length ≤ n → isClosed n v'.entries = true)

variable {v v' : Inventory}

section

variable (active idle before after : List Slot) (cs : Multiset Candidate) (slot : Slot)
  (generation : Nat) (stage : Stage)

theorem coe_map_title : (↑((before ++ slot :: after).map Slot.title) : Multiset (Nat × Physical)) =
    slot.title ::ₘ ↑((before ++ after).map Slot.title) :=
  Multiset.coe_eq_coe.mpr (List.perm_middle.map Slot.title)

theorem titlesOf_active : titlesOf (before ++ slot :: after) idle cs =
    slot.title ::ₘ titlesOf (before ++ after) idle cs := by
  rw [titlesOf, titlesOf, coe_map_title, Multiset.cons_add, Multiset.cons_add]

theorem titlesOf_idle : titlesOf active (before ++ slot :: after) cs =
    slot.title ::ₘ titlesOf active (before ++ after) cs := by
  rw [titlesOf, titlesOf, coe_map_title, Multiset.add_cons, Multiset.cons_add]

theorem titlesOf_candidates : titlesOf active idle (⟨slot, generation, stage⟩ ::ₘ cs) =
    slot.title ::ₘ titlesOf active idle cs := by
  rw [titlesOf, titlesOf, Multiset.map_cons, Multiset.add_cons]

theorem titlesOf_nothing : titlesOf active idle cs =
    ↑((active ++ idle).map Slot.title) + titlesOf [] [] cs := by
  rw [titlesOf, titlesOf, List.map_append, ← Multiset.coe_add, List.map_nil, Multiset.coe_nil,
    zero_add, zero_add]

theorem mem_titlesOf {t : Nat × Physical} :
    t ∈ titlesOf active idle cs ↔ (∃ slot ∈ active, slot.title = t) ∨
      (∃ slot ∈ idle, slot.title = t) ∨ ∃ c ∈ cs, c.slot.title = t := by
  rw [titlesOf, Multiset.mem_add, Multiset.mem_add, Multiset.mem_coe, Multiset.mem_coe,
    List.mem_map, List.mem_map, Multiset.mem_map, or_assoc]

end

theorem titles_of_active (before after : List Slot) {slot : Slot}
    (h : v.active = before ++ slot :: after) :
    v.titles = slot.title ::ₘ titlesOf (before ++ after) v.idle v.candidates := by
  rw [titles, h]
  exact titlesOf_active v.idle before after v.candidates slot

theorem titles_of_candidates {c : Candidate} {rest : Multiset Candidate}
    (h : v.candidates = c ::ₘ rest) :
    v.titles = c.slot.title ::ₘ titlesOf v.active v.idle rest := by
  rw [titles, h]
  exact titlesOf_candidates v.active v.idle rest c.slot c.generation c.stage

-- A candidate has the same title at every stage.
theorem titles_restage {slot : Slot} {generation : Nat} {stage : Stage}
    {rest : Multiset Candidate} (h : v.candidates = ⟨slot, generation, stage⟩ ::ₘ rest)
    (stage' : Stage) :
    titlesOf v.active v.idle (⟨slot, generation, stage'⟩ ::ₘ rest) = v.titles := by
  rw [titles, h, titlesOf_candidates, titlesOf_candidates]

theorem filter_bne (wrapper : Nat) (live : List Nat) :
    live.filter (· != wrapper) = live.filter fun x => !([wrapper].contains x) := by
  refine List.filter_congr fun x _ => ?_
  rw [List.contains_cons, List.contains_nil, Bool.or_false]
  rfl

theorem Retitling.kept (htitles : v'.titles = v.titles)
    (hplaces : v'.places = v.places ∨
      ∃ n, v.places = n ::ₘ v'.places ∧ isClosed n v'.entries = true)
    (hlive : v'.live = v.live) (hwrappers : v'.wrappers = v.wrappers)
    (hphysicals : v'.physicals = v.physicals) (hopenings : v'.openings = v.openings) :
    v.Retitling v' := by
  refine .removed [] ?_ hplaces ?_ hwrappers hphysicals ?_ ?_
  · rw [htitles, Multiset.coe_nil, zero_add]
  · rw [hlive, List.filter_eq_self.mpr]
    intro x _
    rfl
  · rw [hopenings]
  · rw [hopenings]
    intro n hlt hle
    exact absurd hlt (Nat.not_lt.mpr hle)

theorem places_eq (htitles : v'.titles = v.titles) (hcondemned : v'.condemned = v.condemned) :
    v'.places = v.places := by
  rw [places, places, htitles, hcondemned]

/-- Every transfer keeps the titles, gives one to a new connection, renews one, or removes some. -/
theorem Transfer.retitling (h : v.Transfer v') : v.Retitling v' := by
  cases h with
  | same => exact .kept rfl (.inl rfl) rfl rfl rfl rfl
  | @pick slot rest hidle =>
    have htitles : titlesOf v.active rest (⟨slot, v.generation, .testing (Slot.tests false)⟩ ::ₘ
        v.candidates) = v.titles := by
      rw [titles, hidle, titlesOf_candidates]
      exact (titlesOf_idle v.active [] rest v.candidates slot).symm
    exact .kept htitles (.inl (places_eq htitles rfl)) rfl rfl rfl rfl
  | @fail opening es habout hclosed =>
    refine .removed [] ?_ (.inl rfl) ?_ rfl rfl ?_ ?_
    · rw [Multiset.coe_nil, zero_add]
      rfl
    · exact (List.filter_eq_self.mpr fun _ _ => rfl).symm
    · rw [List.length_append]
      exact Nat.le_add_right _ _
    · intro n hlt hle
      rw [List.length_append, List.length_singleton] at hlt
      obtain rfl : n = v.openings.length := by omega
      exact isClosed_append.trans (by rw [hclosed, Bool.true_or])
  | @connect opening es slot hidle hroom hsound hwrapper hphysical =>
    have htitle : slot.title = (v.wrappers + 1, ⟨v.physicals + 1, v.openings.length⟩) := by
      rw [Slot.title, hwrapper, hphysical]
    refine .opened ?_ ?_ rfl rfl rfl List.length_append
    · rw [titles, titlesOf_candidates, htitle]
      rfl
    · rw [places, titles, titlesOf_candidates, htitle, Multiset.map_cons, Multiset.cons_add]
      rfl
  | @reclaim slot slot' rest hidle hactive hwrapper hphysical =>
    have hbefore : v.titles = slot.title ::ₘ titlesOf rest v.idle v.candidates :=
      titles_of_active [] rest hactive
    have htitle : slot'.title = (v.wrappers + 1, slot.physical) := by
      rw [Slot.title, hwrapper, hphysical]
    refine .renewed hbefore ?_ ?_ rfl rfl rfl rfl
    · rw [titles, titlesOf_candidates, htitle]
    · rw [places, places, hbefore, titles, titlesOf_candidates, htitle, Multiset.map_cons,
        Multiset.map_cons]
      rfl
  | pass hcandidates hpassed hfree =>
    have htitles := titles_restage hcandidates
    exact .kept (htitles _) (.inl (places_eq (htitles _) rfl)) rfl rfl rfl rfl
  | failTest hcandidates habout =>
    have htitles := titles_restage hcandidates
    exact .kept (htitles _) (.inl (places_eq (htitles _) rfl)) rfl rfl rfl rfl
  | finish hcandidates =>
    have htitles := titles_restage hcandidates
    exact .kept (htitles _) (.inl (places_eq (htitles _) rfl)) rfl rfl rfl rfl
  | @handOut slot slot' rest hcandidates hwrapper hphysical =>
    have htitle : slot'.title = slot.title := by
      rw [Slot.title, hwrapper, hphysical]
      rfl
    have htitles : titlesOf (v.active ++ [slot']) v.idle rest = v.titles := by
      have hactive := titlesOf_active v.idle v.active [] rest slot'
      rw [List.append_nil] at hactive
      rw [hactive, titles, hcandidates, titlesOf_candidates, htitle]
    exact .kept htitles (.inl (places_eq htitles rfl)) rfl rfl rfl rfl
  | @reject slot generation good rest hcandidates =>
    have htitles := titles_of_candidates hcandidates
    refine .removed [slot.title] htitles (.inl ?_) (filter_bne _ _) rfl rfl (le_refl _) ?_
    · rw [places, places, htitles, Multiset.map_cons, Multiset.map_cons, Multiset.cons_add,
        Multiset.add_cons]
      rfl
    · exact fun n hlt hle => absurd hlt (Nat.not_lt.mpr hle)
  | @close slot rest es hcondemned habout hclosed =>
    refine .kept rfl (.inr ⟨slot.physical.connection, ?_, ?_⟩) rfl rfl rfl rfl
    · rw [places, hcondemned, Multiset.map_cons, Multiset.add_cons]
      rfl
    · exact isClosed_append.trans (by rw [hclosed, Bool.true_or])
  | @keep slot slot' before after es hactive hroom hsound hwrapper hphysical hdone =>
    have hbefore := titles_of_active before after hactive
    have hafter := titlesOf_idle (before ++ after) v.idle [] v.candidates slot'
    rw [List.append_nil, Slot.title, hwrapper, hphysical] at hafter
    refine .renewed hbefore hafter ?_ rfl rfl rfl rfl
    rw [places, places, hbefore, titles, hafter, Multiset.map_cons, Multiset.map_cons]
    rfl
  | @discard slot before after es hactive habout hclosed =>
    have hbefore := titles_of_active before after hactive
    refine .removed [slot.title] hbefore (.inr ⟨slot.physical.connection, ?_, ?_⟩)
      (filter_bne _ _) rfl rfl (le_refl _) ?_
    · rw [places, hbefore, Multiset.map_cons, Multiset.cons_add]
      rfl
    · exact isClosed_append.trans (by rw [hclosed, Bool.true_or])
    · exact fun n hlt hle => absurd hlt (Nat.not_lt.mpr hle)
  | tearDown maxActive maxIdle =>
    have hbefore := titlesOf_nothing v.active v.idle v.candidates
    refine .removed ((v.active ++ v.idle).map Slot.title) hbefore (.inl ?_) ?_ rfl rfl
      (le_refl _) ?_
    · have hcondemned : (↑(v.active ++ v.idle) : Multiset Slot).map (·.physical.connection) =
          (↑((v.active ++ v.idle).map Slot.title) : Multiset (Nat × Physical)).map
            (·.2.connection) := by
        rw [Multiset.map_coe, Multiset.map_coe, List.map_map]
        rfl
      rw [places, places, titles, titles, hbefore, Multiset.map_add, Multiset.map_add, hcondemned]
      -- What is condemned now had a place before.
      have hswap (a b c : Multiset Nat) : b + (c + a) = a + b + c := by
        rw [add_comm c a, add_left_comm, add_assoc]
      exact hswap _ _ _
    · rw [List.map_map]
      rfl
    · exact fun n hlt hle => absurd hlt (Nat.not_lt.mpr hle)
  | ask hhandle hlive hcall => exact .kept rfl (.inl rfl) rfl rfl rfl rfl
  | answer hcalls => exact .kept rfl (.inl rfl) rfl rfl rfl rfl

/-- No two titles share a wrapper, a number or a connection, and nothing condemned shares a
connection with another one or with a title. The live wrappers are those of the titles. -/
structure Separate (v : Inventory) : Prop where
  wrappers : (v.titles.map (·.1)).Nodup
  numbers : (v.titles.map (·.2.number)).Nodup
  places : v.places.Nodup
  wrapper_le : ∀ t ∈ v.titles, t.1 ≤ v.wrappers
  number_le : ∀ t ∈ v.titles, t.2.number ≤ v.physicals
  place_lt : ∀ n ∈ v.places, n < v.openings.length
  live_iff : ∀ x, x ∈ v.live ↔ x ∈ v.titles.map (·.1)

theorem nodup_cons_succ {ns : Multiset Nat} {n : Nat} (h : ns.Nodup) (hle : ∀ m ∈ ns, m ≤ n) :
    ((n + 1) ::ₘ ns).Nodup := by
  rw [Multiset.nodup_cons]
  refine ⟨fun hmem => ?_, h⟩
  exact absurd (hle _ hmem) (Nat.not_succ_le_self n)

/-- A new connection gets a title of its own. -/
theorem Separate.opened (h : v.Separate) (htitles : v'.titles =
      (v.wrappers + 1, ⟨v.physicals + 1, v.openings.length⟩) ::ₘ v.titles)
    (hplaces : v'.places = v.openings.length ::ₘ v.places)
    (hlive : v'.live = (v.wrappers + 1) :: v.live) (hwrappers : v'.wrappers = v.wrappers + 1)
    (hphysicals : v'.physicals = v.physicals + 1)
    (hopenings : v'.openings.length = v.openings.length + 1) : v'.Separate where
  wrappers := by
    rw [htitles, Multiset.map_cons]
    refine nodup_cons_succ h.wrappers ?_
    intro m hm
    obtain ⟨t, ht, rfl⟩ := Multiset.mem_map.mp hm
    exact h.wrapper_le t ht
  numbers := by
    rw [htitles, Multiset.map_cons]
    refine nodup_cons_succ h.numbers ?_
    intro m hm
    obtain ⟨t, ht, rfl⟩ := Multiset.mem_map.mp hm
    exact h.number_le t ht
  places := by
    rw [hplaces, Multiset.nodup_cons]
    refine ⟨fun hmem => ?_, h.places⟩
    exact absurd (h.place_lt _ hmem) (Nat.lt_irrefl _)
  wrapper_le := by
    rw [htitles, hwrappers]
    intro t ht
    rcases Multiset.mem_cons.mp ht with rfl | ht
    · exact le_refl _
    · exact Nat.le_succ_of_le (h.wrapper_le t ht)
  number_le := by
    rw [htitles, hphysicals]
    intro t ht
    rcases Multiset.mem_cons.mp ht with rfl | ht
    · exact le_refl _
    · exact Nat.le_succ_of_le (h.number_le t ht)
  place_lt := by
    rw [hplaces, hopenings]
    intro n hn
    rcases Multiset.mem_cons.mp hn with rfl | hn
    · exact Nat.lt_succ_self _
    · exact Nat.lt_succ_of_lt (h.place_lt n hn)
  live_iff := by
    intro x
    rw [hlive, htitles, Multiset.map_cons, Multiset.mem_cons, List.mem_cons, h.live_iff]

theorem Separate.renewed (h : v.Separate) {wrapper : Nat} {physical : Physical}
    {rest : Multiset (Nat × Physical)} (hbefore : v.titles = (wrapper, physical) ::ₘ rest)
    (htitles : v'.titles = (v.wrappers + 1, physical) ::ₘ rest)
    (hplaces : v'.places = v.places)
    (hlive : v'.live = (v.wrappers + 1) :: v.live.filter (· != wrapper))
    (hwrappers : v'.wrappers = v.wrappers + 1) (hphysicals : v'.physicals = v.physicals)
    (hopenings : v'.openings = v.openings) : v'.Separate where
  wrappers := by
    have hnodup := h.wrappers
    rw [hbefore, Multiset.map_cons, Multiset.nodup_cons] at hnodup
    rw [htitles, Multiset.map_cons]
    refine nodup_cons_succ hnodup.2 ?_
    intro m hm
    obtain ⟨t, ht, rfl⟩ := Multiset.mem_map.mp hm
    exact h.wrapper_le t (hbefore ▸ Multiset.mem_cons_of_mem ht)
  numbers := by
    have hnodup := h.numbers
    rw [hbefore, Multiset.map_cons] at hnodup
    rw [htitles, Multiset.map_cons]
    exact hnodup
  places := by
    rw [hplaces]
    exact h.places
  wrapper_le := by
    rw [htitles, hwrappers]
    intro t ht
    rcases Multiset.mem_cons.mp ht with rfl | ht
    · exact le_refl _
    · exact Nat.le_succ_of_le (h.wrapper_le t (hbefore ▸ Multiset.mem_cons_of_mem ht))
  number_le := by
    rw [htitles, hphysicals]
    intro t ht
    rcases Multiset.mem_cons.mp ht with rfl | ht
    · exact h.number_le (wrapper, physical) (hbefore ▸ Multiset.mem_cons_self _ _)
    · exact h.number_le t (hbefore ▸ Multiset.mem_cons_of_mem ht)
  place_lt := by
    rw [hplaces, hopenings]
    exact h.place_lt
  live_iff := by
    intro x
    have hnodup := h.wrappers
    have hx := h.live_iff x
    rw [hbefore, Multiset.map_cons] at hnodup hx
    rw [Multiset.mem_cons] at hx
    rw [hlive, htitles, Multiset.map_cons, Multiset.mem_cons, List.mem_cons, List.mem_filter, hx]
    -- The wrapper that is renewed belongs to no other title.
    have hother : x ∈ rest.map (·.1) → x ≠ wrapper := by
      rintro hmem rfl
      exact (Multiset.nodup_cons.mp hnodup).1 hmem
    constructor
    · rintro (hnew | ⟨rfl | hold, hne⟩)
      · exact .inl hnew
      · simp at hne
      · exact .inr hold
    · rintro (hnew | hold)
      · exact .inl hnew
      · exact .inr ⟨.inr hold, by simpa using hother hold⟩

theorem Separate.removed (h : v.Separate) {gone : List (Nat × Physical)}
    (htitles : v.titles = ↑gone + v'.titles)
    (hplaces : v'.places ≤ v.places)
    (hlive : v'.live = v.live.filter fun x => !(gone.map (·.1)).contains x)
    (hwrappers : v'.wrappers = v.wrappers) (hphysicals : v'.physicals = v.physicals)
    (hopenings : v.openings.length ≤ v'.openings.length) : v'.Separate := by
  have hle : v'.titles ≤ v.titles := htitles ▸ Multiset.le_add_left _ _
  refine ⟨?_, ?_, ?_, ?_, ?_, ?_, ?_⟩
  · exact Multiset.nodup_of_le (Multiset.map_le_map hle) h.wrappers
  · exact Multiset.nodup_of_le (Multiset.map_le_map hle) h.numbers
  · exact Multiset.nodup_of_le hplaces h.places
  · rw [hwrappers]
    exact fun t ht => h.wrapper_le t (Multiset.mem_of_le hle ht)
  · rw [hphysicals]
    exact fun t ht => h.number_le t (Multiset.mem_of_le hle ht)
  · intro n hn
    exact lt_of_lt_of_le (h.place_lt n (Multiset.mem_of_le hplaces hn)) hopenings
  · intro x
    have hnodup := h.wrappers
    have hx := h.live_iff x
    rw [htitles, Multiset.map_add, Multiset.map_coe] at hnodup hx
    rw [Multiset.mem_add, Multiset.mem_coe] at hx
    -- The wrappers that are gone are those of no other title.
    have hdisjoint := (Multiset.nodup_add.mp hnodup).2.2
    rw [hlive, List.mem_filter, hx]
    constructor
    · rintro ⟨hgone | hold, hnot⟩
      · simp [hgone] at hnot
      · exact hold
    · intro hold
      refine ⟨.inr hold, ?_⟩
      have hnot : x ∉ gone.map (·.1) := fun hgone =>
        Multiset.disjoint_left.mp hdisjoint (Multiset.mem_coe.mpr hgone) hold
      simpa using hnot

theorem Separate.retitling (h : v.Separate) (ht : v.Retitling v') : v'.Separate := by
  cases ht with
  | opened htitles hplaces hlive hwrappers hphysicals hopenings =>
    exact h.opened htitles hplaces hlive hwrappers hphysicals hopenings
  | renewed hbefore htitles hplaces hlive hwrappers hphysicals hopenings =>
    exact h.renewed hbefore htitles hplaces hlive hwrappers hphysicals hopenings
  | removed gone htitles hplaces hlive hwrappers hphysicals hopenings hnew =>
    refine h.removed htitles ?_ hlive hwrappers hphysicals hopenings
    rcases hplaces with hsame | ⟨n, hless, -⟩
    · exact le_of_eq hsame
    · exact hless ▸ Multiset.le_cons_self _ _

/-- No transfer gives two titles the same wrapper or connection. -/
theorem Separate.transfer (h : v.Separate) (ht : v.Transfer v') : v'.Separate :=
  h.retitling ht.retitling

theorem mem_titles {t : Nat × Physical} :
    t ∈ v.titles ↔ (∃ slot ∈ v.active, slot.title = t) ∨ (∃ slot ∈ v.idle, slot.title = t) ∨
      ∃ c ∈ v.candidates, c.slot.title = t :=
  mem_titlesOf v.active v.idle v.candidates

-- The connection of a title decides its wrapper.
theorem Separate.nodup_active (h : v.Separate) : (v.active.map (·.wrapper)).Nodup := by
  have hwrappers := h.wrappers
  rw [titles, titlesOf, Multiset.map_add, Multiset.nodup_add, Multiset.map_add,
    Multiset.nodup_add] at hwrappers
  have hactive := hwrappers.1.1
  rw [Multiset.map_coe, Multiset.coe_nodup, List.map_map] at hactive
  exact hactive

theorem Separate.title_eq (h : v.Separate) {slot slot' : Slot} (hslot : slot.title ∈ v.titles)
    (hslot' : slot'.title ∈ v.titles)
    (heq : slot.physical.connection = slot'.physical.connection) : slot.title = slot'.title :=
  Multiset.inj_on_of_nodup_map (Multiset.nodup_add.mp h.places).1 _ hslot _ hslot' heq

end Inventory

namespace Scene

variable {ω : Type}

theorem separate_start (settings : ConnectionSettings) (config : PoolConfig) (server : ω) :
    (start settings config server).inventory.Separate := by
  refine ⟨?_, ?_, ?_, ?_, ?_, ?_, ?_⟩
  · exact Multiset.nodup_zero
  · exact Multiset.nodup_zero
  · exact Multiset.nodup_zero
  · exact fun t ht => absurd ht (Multiset.notMem_zero t)
  · exact fun t ht => absurd ht (Multiset.notMem_zero t)
  · exact fun n hn => absurd hn (Multiset.notMem_zero n)
  · intro x
    exact ⟨fun hx => absurd hx List.not_mem_nil, fun hx => absurd hx (Multiset.notMem_zero x)⟩

end Scene
end SqlMapper
