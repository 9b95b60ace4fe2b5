import SqlMapper.Pool.ConfigDocument
import SqlMapper.Proofs.Json.Documents

/-!
The limits of a pool as a document and back. A document has room for every limit but for the part of
a time below a millisecond, so limits that have no such part are read back as they are.
-/

namespace SqlMapper

open Json

namespace Duration

def IsWhole (d : Duration) : Prop :=
  ∃ ms < Nat.pow 2 64, d = .ofMillis ms

theorem IsWhole.ofMillis_millis {d : Duration} (h : d.IsWhole) : ofMillis d.millis = d := by
  obtain ⟨ms, hms, rfl⟩ := h
  have hmillis : (ofMillis ms).millis = ms := by
    rw [millis, ofMillis, Nat.mul_div_cancel ms (by decide)]
    exact Nat.mod_eq_of_lt hms
  rw [hmillis]

end Duration

namespace PoolConfig

variable (c : PoolConfig)

def inMillis : PoolConfig :=
  { c with
    maxCheckoutTime := .ofMillis c.maxCheckoutTime.millis
    timeToWait := .ofMillis c.timeToWait.millis
    pingNotUsedFor := .ofMillis c.pingNotUsedFor.millis }

theorem readable_toJson : c.toJson.Readable := by
  apply Readable.ofMembers
  intro m hm
  simp only [List.mem_cons, List.not_mem_nil, or_false] at hm
  rcases hm with rfl | rfl | rfl | rfl | rfl | rfl | rfl | rfl
  case inr.inr.inr.inr.inr.inl => exact .bool c.pings
  case inr.inr.inr.inr.inr.inr.inl => exact .text c.pingQuery
  all_goals exact .ofNat _

theorem count?_ofNat {n : Nat} (hn : n < Nat.pow 2 64) : count? (.ofNat n) = some (.ofNat n) := by
  rw [Json.ofNat, count?, Text.numeral?_decimal]
  exact if_pos hn

theorem count?_toNat (n : UInt64) : count? (.ofNat n.toNat) = some n := by
  rw [count?_ofNat n.toNat_lt, UInt64.ofNat_toNat]

theorem time?_millis (d : Duration) : time? (.ofNat d.millis) = some (.ofMillis d.millis) := by
  have hbound : d.millis < Nat.pow 2 64 := Nat.mod_lt _ (by decide)
  rw [time?, count?_ofNat hbound, Option.map_some, UInt64.toNat_ofNat_of_lt' hbound]

theorem ofJson?_ofMembers (members : List (String × Json)) :
    ofJson? (.ofMembers members) =
      if namedOnce members then members.foldlM setLimit standard else none := by
  have hnamed : (members.map fun m => (some m.1, m.2)).mapM
      (fun m : Option String × Json => m.1.map fun name => (name, m.2)) = some members := by
    induction members with
    | nil => rfl
    | cons m ms ih =>
      rw [List.map_cons, List.mapM_cons, ih]
      rfl
  rw [ofMembers, ofJson?, hnamed]
  rfl

/-- Every limit is set to what was written of it, whatever the standard says. -/
theorem ofJson?_toJson : ofJson? c.toJson = some c.inMillis := by
  have honce : ∀ members : List (String × Json), members.map (·.1) = names → namedOnce members := by
    intro members hmembers
    rw [namedOnce, hmembers]
    decide
  rw [toJson, ofJson?_ofMembers, if_pos (honce _ rfl)]
  -- The eight limits are set one after the other, each from what was written of it.
  simp only [List.foldlM_cons, List.foldlM_nil, setLimit, count?_toNat, time?_millis, truth?, text?,
    Json.ofString, Option.map_some, Option.bind_eq_bind, Option.bind_some]
  rfl

/-- Limits that a pool can work with, and whose times are whole milliseconds, are what the text of
their document gives. -/
theorem ofText_toText {c : PoolConfig} (hvalid : c.validate = .ok ())
    (hcheckout : c.maxCheckoutTime.IsWhole) (hwait : c.timeToWait.IsWhole)
    (hping : c.pingNotUsedFor.IsWhole) : ofText c.toText = .ok c := by
  have hread : (read? c.toText).bind ofJson? = some c.inMillis := by
    rw [toText, c.readable_toJson.read?_pretty, Option.bind_some, ofJson?_toJson]
  have hwhole : c.inMillis = c := by
    rw [inMillis, hcheckout.ofMillis_millis, hwait.ofMillis_millis, hping.ofMillis_millis]
  rw [ofText, hread, hwhole]
  dsimp only
  rw [hvalid]
  rfl

/-- The greatest counts and the longest time, and a query with a quote, a backslash, a control
character and a letter beyond ASCII in it. -/
theorem ofText_toText_greatest :
    let c : PoolConfig := {
      maxActive := 18446744073709551615
      maxIdle := 0
      maxCheckoutTime := .ofMillis 18446744073709551615
      timeToWait := .zero
      badTolerance := 18446744073709551615
      pings := true
      pingQuery := "SELECT \"\\\x01ü\""
      pingNotUsedFor := .ofMillis 1 }
    ofText c.toText = .ok c :=
  ofText_toText (by decide) ⟨18446744073709551615, by decide, rfl⟩ ⟨0, by decide, rfl⟩
    ⟨1, by decide, rfl⟩

end PoolConfig
end SqlMapper
