import SqlMapper.Proofs.Pool.Inventory

/-!
Every step of a scene is a transfer of its inventory. The sections of an acquisition come first,
each with whatever else goes on around it, then returns, operations on the whole pool and calls.
-/

namespace SqlMapper

open Connection Ledger

variable {ω : Type}

/-- What can come of the search for a candidate: the slot that has been idle longest; without an
idle one and with room, a new connection or the error of opening it; without room, the slot that has
been in use longest if that is too long, and otherwise nothing. -/
inductive Pool.Choice [Server ω] (now : Instant) (username password : Option String) (p : Pool)
    (w : ω) : Except Error (Option (Slot × Bool)) × Pool × ω → Prop where
  | idle {slot : Slot} {rest : List Slot} (hidle : p.idle = slot :: rest) :
    Choice now username password p w (.ok (some (slot, false)), { p with idle := rest }, w)
  | refused {e : Error} {w' : ω} (hidle : p.idle = []) (hroom : p.hasRoom = true)
      (hconnect : (p.settings.connect username password).run w = (.error e, w')) :
    Choice now username password p w (.error e, p, w')
  | opened {connection : Nat} {w' : ω} (hidle : p.idle = []) (hroom : p.hasRoom = true)
      (hconnect : (p.settings.connect username password).run w = (.ok connection, w')) :
    Choice now username password p w
      (.ok (some ((p.newSlot now connection).1, false)), (p.newSlot now connection).2, w')
  | reclaimed {oldest : Slot} {rest : List Slot} (hidle : p.idle = [])
      (hroom : p.hasRoom = false) (hactive : p.active = oldest :: rest)
      (hoverdue : p.isOverdue now oldest = true) :
    Choice now username password p w
      (.ok (some ((p.reclaim now oldest rest).1, true)), (p.reclaim now oldest rest).2, w)
  | nothing (hidle : p.idle = []) (hroom : p.hasRoom = false)
      (hoverdue : ∀ oldest ∈ p.active.head?, p.isOverdue now oldest = false) :
    Choice now username password p w (.ok none, p, w)

theorem Pool.candidate_choice [Server ω] (now : Instant) (username password : Option String)
    (p : Pool) (w : ω) :
    p.Choice now username password w (p.candidate now username password w) := by
  unfold candidate
  cases hidle : p.idle with
  | cons slot rest => exact .idle hidle
  | nil =>
    dsimp only
    cases hroom : p.hasRoom with
    | true =>
      rw [if_pos rfl]
      rcases hconnect : (p.settings.connect username password).run w with ⟨e | connection, w'⟩
      · exact .refused hidle hroom hconnect
      · exact .opened hidle hroom hconnect
    | false =>
      rw [if_neg (by simp)]
      cases hactive : p.active with
      | nil => exact .nothing hidle hroom (by simp [hactive])
      | cons oldest rest =>
        dsimp only
        cases hoverdue : p.isOverdue now oldest with
        | true => exact .reclaimed hidle hroom hactive hoverdue
        | false => exact .nothing hidle hroom (by simpa [hactive] using hoverdue)

section

variable (p : Pool) (l : Ledger ω) (cs : Multiset Candidate) (ds : Multiset Slot)
  (hs : List (Nat × Physical)) (calls : Multiset Ongoing)

theorem Inventory.of_written {l' : Ledger ω} {os : List Opening} {es : List Entry}
    (hopenings : l'.openings = os) (hentries : l'.entries = es) :
    Inventory.of p l' cs ds hs calls =
      { Inventory.of p l cs ds hs calls with openings := os, entries := es } := by
  subst hopenings hentries
  rfl

def Acquisition.inventory (a : Acquisition) (p : Pool) (l : Ledger ω) : Inventory :=
  .of p l (a.candidate?.elim cs (· ::ₘ cs)) (a.condemned?.elim ds (· ::ₘ ds))
    (a.handed?.elim hs fun h => hs ++ [h]) calls

variable [Server ω]

/-- Looking for a candidate, in a pool that may have changed in what an inventory does not show. -/
theorem Pool.transfer_examine {q : Pool} (now : Instant) (a : Acquisition)
    (hq : Inventory.of q l cs ds hs calls = .of p l cs ds hs calls) :
    (Inventory.of q l cs ds hs calls).Transfer
      ((p.examine now a l).1.inventory cs ds hs calls (p.examine now a l).2.1
        (p.examine now a l).2.2) := by
  rw [hq]
  have hchoice := p.candidate_choice now a.username a.password l
  unfold examine
  generalize p.candidate now a.username a.password l = r at hchoice ⊢
  cases hchoice with
  | idle hidle => exact .pick hidle
  | refused hidle hroom hconnect =>
    have hc := p.settings.connects a.username a.password l
    rw [hconnect] at hc
    cases hc with
    | refused e hopenings hentries =>
      change Inventory.Transfer _ (.of p _ cs ds hs calls)
      rw [Inventory.of_written p l cs ds hs calls hopenings hentries]
      exact .same
    | failed e o es hurl hproperties hopenings hentries habout hclosed =>
      change Inventory.Transfer _ (.of p _ cs ds hs calls)
      rw [Inventory.of_written p l cs ds hs calls hopenings hentries]
      exact .fail habout hclosed
  | opened hidle hroom hconnect =>
    have hc := p.settings.connects a.username a.password l
    rw [hconnect] at hc
    cases hc with
    | opened o es hurl hproperties hopenings hentries hsound =>
      change Inventory.Transfer _ (.of _ _ (_ ::ₘ cs) ds hs calls)
      rw [Inventory.of_written _ l _ ds hs calls hopenings hentries]
      exact .connect hidle (of_decide_eq_true hroom) hsound rfl rfl
  | reclaimed hidle hroom hactive hoverdue => exact .reclaim hidle hactive rfl rfl
  | nothing hidle hroom hoverdue =>
    dsimp only
    split
    · exact .same
    · exact .same

omit [Server ω] in
theorem Pool.transfer_conclude (now : Instant) (slot : Slot) (generation : Nat) (good : Bool)
    (a : Acquisition) :
    (Inventory.of p l (⟨slot, generation, .tested good⟩ ::ₘ cs) ds hs calls).Transfer
      ((p.conclude now slot generation good a).1.inventory cs ds hs calls
        (p.conclude now slot generation good a).2 l) := by
  unfold conclude
  by_cases hgeneration : p.generation = generation
  · subst hgeneration
    cases good with
    | true => simpa using .handOut rfl rfl rfl
    | false => simpa using .reject rfl
  -- A candidate of an earlier generation is rejected, however good it is.
  · simpa [hgeneration] using .reject rfl

variable [Clock ω]

/-- A section of an acquisition that has the connection it needs for itself. -/
theorem Acquisition.transfer_step (a : Acquisition) (hover : a.result? = none)
    (hfree : ∀ n ∈ a.connection?, ∀ c ∈ calls, c.connection ≠ n) :
    (a.inventory cs ds hs calls p l).Transfer
      ((a.step undisturbed p l).1.inventory cs ds hs calls (a.step undisturbed p l).2.1
        (a.step undisturbed p l).2.2) := by
  -- Reading the clock writes nothing.
  have hread : a.inventory cs ds hs calls p l =
      a.inventory cs ds hs calls p (Clock.read l).2 := rfl
  rw [hread]
  unfold step
  obtain ⟨now, l⟩ := Clock.read l
  obtain ⟨username, password, startedAt, epoch, bad, deadline, waitingSince, lastPass, phase⟩ := a
  cases phase with
  | starting => exact p.transfer_examine l cs ds hs calls now _ rfl
  | parked ticket wakeAt =>
    dsimp only [Pool.wake]
    split
    · exact .same
    · exact Pool.transfer_examine _ l cs ds hs calls now _ rfl
  | checking slot config generation left =>
    cases left with
    | nil => exact .finish rfl
    | cons test left =>
      have htest := slot.records_passes config now (p.isLive slot.wrapper) test l
      dsimp only [undisturbed]
      generalize slot.passes config now (p.isLive slot.wrapper) test l = r at htest ⊢
      obtain ⟨good, l'⟩ := r
      obtain ⟨es, hw, hgood⟩ := htest
      cases good with
      | true =>
        change Inventory.Transfer _ (.of p l' (_ ::ₘ cs) ds hs calls)
        rw [Inventory.of_written p l _ ds hs calls hw.openings hw.entries]
        refine .pass rfl (hgood rfl) fun htest => ?_
        exact hfree slot.physical.connection (by simp [connection?, htest])
      | false =>
        change Inventory.Transfer _ (.of p l' (_ ::ₘ cs) ds hs calls)
        rw [Inventory.of_written p l _ ds hs calls hw.openings hw.entries]
        exact .failTest rfl hw.about
  | checked slot generation good =>
    exact p.transfer_conclude l cs ds hs calls now slot generation good _
  | discarding slot bad =>
    obtain ⟨es, hw, hclosed⟩ := records_closeQuietly (n := slot.physical.connection) l
    change Inventory.Transfer _ (.of p (closeQuietly slot.physical.connection l).2 cs ds hs calls)
    rw [Inventory.of_written p l cs ds hs calls hw.openings hw.entries]
    exact .close rfl hw.about hclosed
  | discarded bad =>
    dsimp only [Pool.resume]
    split
    · split
      · exact .same
      · exact Pool.transfer_examine _ l cs ds hs calls now _ rfl
    · exact Pool.transfer_examine _ l cs ds hs calls now _ rfl
  | done result => exact absurd hover (by simp [result?])

omit [Clock ω] in
/-- A slot that came back is closed, whatever was done with its connection before. -/
theorem Pool.transfer_discard {q : Pool} {l₁ : Ledger ω} {slot : Slot} {before after : List Slot}
    {es : List Entry} (hactive : p.active = before ++ slot :: after)
    (hq : Inventory.of q l cs ds hs calls =
      { Inventory.of p l cs ds hs calls with active := before ++ after })
    (hw : Writes slot.physical.connection es l l₁) :
    (Inventory.of p l cs ds hs calls).Transfer
      (.of (q.discard slot l₁).1 (q.discard slot l₁).2 cs ds hs calls) := by
  obtain ⟨es₁, hw₁, hclosed⟩ := records_closeQuietly (n := slot.physical.connection) l₁
  have hboth := hw.trans hw₁
  change Inventory.Transfer _ (.of (q.invalidate slot.wrapper)
    (closeQuietly slot.physical.connection l₁).2 cs ds hs calls)
  rw [Inventory.of_written _ l cs ds hs calls hboth.openings hboth.entries]
  have hlive : Inventory.of (q.invalidate slot.wrapper) l cs ds hs calls =
      { Inventory.of p l cs ds hs calls with
        active := before ++ after
        live := p.live.filter (· != slot.wrapper) } := by
    have hq' : q.live = p.live := congrArg Inventory.live hq
    change { Inventory.of q l cs ds hs calls with live := q.live.filter (· != slot.wrapper) } = _
    rw [hq, hq']
  rw [hlive]
  refine .discard hactive hboth.about ?_
  rw [isClosed_append, hclosed, Bool.true_or]

omit [Clock ω] in
theorem Pool.transfer_settle {slot : Slot} {before after : List Slot} (now : Instant)
    (hactive : p.active = before ++ slot :: after)
    (hdone : ∀ c ∈ calls, c.wrapper ≠ slot.wrapper) :
    (Inventory.of p l cs ds hs calls).Transfer
      (.of ({ p with active := before ++ after }.settle now slot l).1
        ({ p with active := before ++ after }.settle now slot l).2 cs ds hs calls) := by
  let q : Pool := { p with active := before ++ after }
  have hq : Inventory.of q l cs ds hs calls =
    { Inventory.of p l cs ds hs calls with active := before ++ after } := rfl
  change Inventory.Transfer _ (.of (q.settle now slot l).1 (q.settle now slot l).2 cs ds hs calls)
  unfold settle
  obtain ⟨es₁, hw₁, hsound₁⟩ := slot.records_answers q.config now l
  rcases hanswers : (slot.answers q.config now).run l with ⟨_ | _, l₁⟩
  · change slot.answers q.config now l = _ at hanswers
    rw [hanswers] at hw₁
    exact p.transfer_discard l cs ds hs calls hactive hq hw₁
  -- The slot answered; whether it is kept is decided after the rollback.
  · change slot.answers q.config now l = _ at hanswers
    rw [hanswers] at hw₁ hsound₁
    obtain ⟨es₂, hw₂, hsound₂⟩ := slot.records_rollsBack l₁
    dsimp only
    rcases hrolls : (slot.rollsBack).run l₁ with ⟨rolled, l₂⟩
    change slot.rollsBack l₁ = _ at hrolls
    rw [hrolls] at hw₂ hsound₂
    have hw := hw₁.trans hw₂
    dsimp only
    split
    · rename_i hkeeps
      obtain ⟨⟨hrolled, hroom⟩, -⟩ : (_ ∧ _) ∧ _ := by
        simpa only [keeps, Bool.and_eq_true] using hkeeps
      have hsound := (hsound₂ hrolled).1.append (hsound₁ rfl)
      change Inventory.Transfer _ (.of _ l₂ cs ds hs calls)
      rw [Inventory.of_written _ l cs ds hs calls hw.openings hw.entries]
      exact .keep hactive (of_decide_eq_true hroom) hsound rfl rfl hdone
    · exact p.transfer_discard l cs ds hs calls hactive hq hw

omit [Clock ω] in
/-- Giving a connection back is a transfer, if its holder has no call going on. -/
theorem Pool.transfer_giveBack (now : Instant) (wrapper : Nat)
    (hdone : ∀ c ∈ calls, c.wrapper ≠ wrapper) :
    (Inventory.of p l cs ds hs calls).Transfer
      (.of (p.giveBack now wrapper l).1 (p.giveBack now wrapper l).2 cs ds hs calls) := by
  unfold giveBack
  cases hfind : p.active.find? (·.wrapper == wrapper) with
  | none => exact .same
  | some slot =>
    obtain ⟨hwrapper, before, after, hactive, hbefore⟩ := List.find?_eq_some_iff_append.mp hfind
    have herase : p.active.eraseP (·.wrapper == wrapper) = before ++ after := by
      rw [hactive, List.eraseP_append_right _ (by simpa using hbefore)]
      simp [hwrapper]
    let q : Pool := { p with active := before ++ after }
    have hq : Inventory.of q l cs ds hs calls =
      { Inventory.of p l cs ds hs calls with active := before ++ after } := rfl
    dsimp only
    rw [herase]
    split
    · have hslot : slot.wrapper = wrapper := by simpa using hwrapper
      exact p.transfer_settle l cs ds hs calls now hactive (hslot ▸ hdone)
    · have hnone : Writes slot.physical.connection [] l l := ⟨rfl, rfl, by simp [IsAbout]⟩
      exact p.transfer_discard l cs ds hs calls hactive hq hnone

end

end SqlMapper
