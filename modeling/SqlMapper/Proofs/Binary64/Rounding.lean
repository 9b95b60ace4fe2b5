import Mathlib.Tactic.Linarith
import SqlMapper.Binary64.Basic

/-!
Rounding keeps the order of numbers: a greater integer never has a smaller nearest number, and
integers of at most 53 bits are rounded to different numbers.
-/

namespace SqlMapper.Binary64

section RoundHalfEven

variable {n m d : Nat}

theorem div_le_roundHalfEven (n d : Nat) : n / d ≤ roundHalfEven n d := by
  unfold roundHalfEven
  dsimp only
  split
  · exact Nat.le_refl _
  · split
    · exact Nat.le_succ _
    · exact Nat.le_add_right _ _

theorem roundHalfEven_le (n d : Nat) : roundHalfEven n d ≤ n / d + 1 := by
  unfold roundHalfEven
  dsimp only
  split
  · exact Nat.le_succ _
  · split
    · exact Nat.le_refl _
    · omega

theorem roundHalfEven_of_dvd (h : d ∣ n) : roundHalfEven n d = n / d := by
  have hmod : n % d = 0 := Nat.mod_eq_zero_of_dvd h
  unfold roundHalfEven
  dsimp only
  rw [hmod]
  rcases Nat.eq_zero_or_pos d with rfl | hd
  · simp
  · rw [if_pos (by omega)]

/-- Rounding a quotient to a whole number keeps the order. -/
theorem roundHalfEven_mono (h : n ≤ m) (d : Nat) : roundHalfEven n d ≤ roundHalfEven m d := by
  rcases (Nat.div_le_div_right h : n / d ≤ m / d).lt_or_eq with hlt | heq
  · calc roundHalfEven n d
      _ ≤ n / d + 1 := roundHalfEven_le n d
      _ ≤ m / d := hlt
      _ ≤ roundHalfEven m d := div_le_roundHalfEven m d
  · -- Between the same two numbers, what is left over decides.
    have hmod : n % d ≤ m % d := by
      have hn := Nat.div_add_mod n d
      have hm := Nat.div_add_mod m d
      rw [heq] at hn
      omega
    unfold roundHalfEven
    dsimp only
    rw [heq]
    split_ifs
    all_goals omega

end RoundHalfEven

section Units

variable {u v : Nat}

def magnitudeOfUnits (u : Nat) : Nat :=
  (u.log2 - 52) * 2 ^ 52 + roundHalfEven u (2 ^ (u.log2 - 52))

theorem exists_nearestMagnitude_eq : ∃ k, k = 1074 ∧ ∀ n,
    nearestMagnitude n 1 = min (magnitudeOfUnits (n * 2 ^ k)) infiniteMagnitude := by
  obtain ⟨k, hk⟩ : ∃ k, k = 1074 := ⟨_, rfl⟩
  refine ⟨k, hk, fun n => ?_⟩
  unfold nearestMagnitude magnitudeOfUnits
  dsimp only
  rw [Nat.div_one, Nat.one_mul, ← hk]
  rfl

/-- At its own scale a number has at most 53 bits before it is rounded. -/
theorem div_scale_lt (u : Nat) : u / 2 ^ (u.log2 - 52) < 2 ^ 53 := by
  rw [Nat.div_lt_iff_lt_mul (Nat.two_pow_pos _), ← Nat.pow_add]
  exact Nat.lt_of_lt_of_le Nat.lt_log2_self (Nat.pow_le_pow_right (by decide) (by omega))

/-- Above the least scale it has all 53 of them. -/
theorem le_div_scale (h : 0 < u.log2 - 52) : 2 ^ 52 ≤ u / 2 ^ (u.log2 - 52) := by
  have hu : u ≠ 0 := by
    rintro rfl
    simp at h
  rw [Nat.le_div_iff_mul_le (Nat.two_pow_pos _), ← Nat.pow_add]
  exact Nat.le_trans (Nat.pow_le_pow_right (by decide) (by omega)) (Nat.log2_self_le hu)

theorem magnitudeOfUnits_le (u : Nat) : magnitudeOfUnits u ≤ (u.log2 - 52 + 2) * 2 ^ 52 := by
  have hround := roundHalfEven_le u (2 ^ (u.log2 - 52))
  have hbits := div_scale_lt u
  unfold magnitudeOfUnits
  omega

theorem le_magnitudeOfUnits (h : 0 < u.log2 - 52) :
    (u.log2 - 52 + 1) * 2 ^ 52 ≤ magnitudeOfUnits u := by
  have hround := div_le_roundHalfEven u (2 ^ (u.log2 - 52))
  have hbits := le_div_scale h
  unfold magnitudeOfUnits
  omega

theorem log2_mono (h : u ≤ v) : u.log2 ≤ v.log2 := by
  rcases Nat.eq_zero_or_pos u with rfl | hu
  · simp
  · have hself := Nat.log2_self_le (Nat.pos_iff_ne_zero.mp hu)
    exact (Nat.le_log2 (by omega)).mpr (hself.trans h)

theorem magnitudeOfUnits_mono (h : u ≤ v) : magnitudeOfUnits u ≤ magnitudeOfUnits v := by
  have hscale : u.log2 - 52 ≤ v.log2 - 52 := Nat.sub_le_sub_right (log2_mono h) 52
  rcases hscale.lt_or_eq with hlt | heq
  · calc magnitudeOfUnits u
      _ ≤ (u.log2 - 52 + 2) * 2 ^ 52 := magnitudeOfUnits_le u
      _ ≤ (v.log2 - 52 + 1) * 2 ^ 52 := Nat.mul_le_mul_right _ (by omega)
      _ ≤ magnitudeOfUnits v := le_magnitudeOfUnits (by omega)
  · unfold magnitudeOfUnits
    rw [heq]
    exact Nat.add_le_add_left (roundHalfEven_mono h _) _

/-- Different numbers that need no rounding have different magnitudes. -/
theorem magnitudeOfUnits_lt (h : u < v) (hu : 2 ^ (u.log2 - 52) ∣ u) (hv : 2 ^ (v.log2 - 52) ∣ v) :
    magnitudeOfUnits u < magnitudeOfUnits v := by
  have hscale : u.log2 - 52 ≤ v.log2 - 52 := Nat.sub_le_sub_right (log2_mono h.le) 52
  rcases hscale.lt_or_eq with hlt | heq
  · have hbits := div_scale_lt u
    calc magnitudeOfUnits u
      _ = (u.log2 - 52) * 2 ^ 52 + u / 2 ^ (u.log2 - 52) := by
        rw [magnitudeOfUnits, roundHalfEven_of_dvd hu]
      _ < (u.log2 - 52 + 2) * 2 ^ 52 := by omega
      _ ≤ (v.log2 - 52 + 1) * 2 ^ 52 := Nat.mul_le_mul_right _ (by omega)
      _ ≤ magnitudeOfUnits v := le_magnitudeOfUnits (by omega)
  · rw [magnitudeOfUnits, magnitudeOfUnits, roundHalfEven_of_dvd hu, roundHalfEven_of_dvd hv]
    rw [heq] at hu ⊢
    have hdiv := Nat.div_lt_div_of_lt_of_dvd hv h
    omega

/-- A whole number of at most 53 bits needs no rounding. -/
theorem scale_dvd {n : Nat} (hn : n ≤ 2 ^ 53) (k : Nat) :
    2 ^ ((n * 2 ^ k).log2 - 52) ∣ n * 2 ^ k := by
  rcases Nat.eq_zero_or_pos n with rfl | hpos
  · simp
  have hunits : n * 2 ^ k ≠ 0 := Nat.mul_ne_zero hpos.ne' (Nat.two_pow_pos k).ne'
  rcases hn.lt_or_eq with hlt | rfl
  · have hlog : (n * 2 ^ k).log2 < 53 + k := by
      rw [Nat.log2_lt hunits, Nat.pow_add]
      exact Nat.mul_lt_mul_of_pos_right hlt (Nat.two_pow_pos k)
    exact Dvd.dvd.mul_left (Nat.pow_dvd_pow 2 (by omega)) n
  · rw [← Nat.pow_add, Nat.log2_two_pow]
    exact Nat.pow_dvd_pow 2 (by omega)

theorem magnitudeOfUnits_le_of_le {n : Nat} (hn : n ≤ 2 ^ 53) (k : Nat) :
    magnitudeOfUnits (n * 2 ^ k) ≤ (k + 3) * 2 ^ 52 := by
  have hlog : (n * 2 ^ k).log2 ≤ 53 + k := by
    have hle := log2_mono (Nat.mul_le_mul_right (2 ^ k) hn)
    rwa [← Nat.pow_add, Nat.log2_two_pow] at hle
  calc magnitudeOfUnits (n * 2 ^ k)
    _ ≤ ((n * 2 ^ k).log2 - 52 + 2) * 2 ^ 52 := magnitudeOfUnits_le _
    _ ≤ (k + 3) * 2 ^ 52 := Nat.mul_le_mul_right _ (by omega)

end Units

section Integers

variable {n m : Nat} {i j : Int}

theorem nearestMagnitude_mono (h : n ≤ m) : nearestMagnitude n 1 ≤ nearestMagnitude m 1 := by
  obtain ⟨k, -, hnearest⟩ := exists_nearestMagnitude_eq
  rw [hnearest, hnearest]
  exact min_le_min_right _ (magnitudeOfUnits_mono (Nat.mul_le_mul_right _ h))

theorem nearestMagnitude_le (n : Nat) : nearestMagnitude n 1 ≤ infiniteMagnitude := by
  obtain ⟨k, -, hnearest⟩ := exists_nearestMagnitude_eq
  rw [hnearest]
  exact min_le_right _ _

theorem nearestMagnitude_lt (h : n < m) (hm : m ≤ 2 ^ 53) :
    nearestMagnitude n 1 < nearestMagnitude m 1 := by
  obtain ⟨k, hk, hnearest⟩ := exists_nearestMagnitude_eq
  have hlt : magnitudeOfUnits (n * 2 ^ k) < magnitudeOfUnits (m * 2 ^ k) :=
    magnitudeOfUnits_lt (Nat.mul_lt_mul_of_pos_right h (Nat.two_pow_pos k))
      (scale_dvd (h.le.trans hm) k) (scale_dvd hm k)
  have hle : magnitudeOfUnits (m * 2 ^ k) ≤ infiniteMagnitude := by
    refine (magnitudeOfUnits_le_of_le hm k).trans ?_
    rw [hk]
    decide
  rw [hnearest, hnearest, min_eq_left hle, min_eq_left (hlt.le.trans hle)]
  exact hlt

theorem nearestMagnitude_zero : nearestMagnitude 0 1 = 0 := by
  obtain ⟨k, -, hnearest⟩ := exists_nearestMagnitude_eq
  rw [hnearest, Nat.zero_mul]
  rfl

theorem toNat_bits_ofMagnitude (negative : Bool) (h : n ≤ infiniteMagnitude) :
    (ofMagnitude negative n).bits.toNat = n + if negative then Nat.pow 2 63 else 0 := by
  have hbound : infiniteMagnitude < Nat.pow 2 63 := by decide
  have hsign : (if negative then Nat.pow 2 63 else 0) ≤ Nat.pow 2 63 := by
    cases negative
    · exact Nat.zero_le _
    · exact Nat.le_refl _
  have hpow : 2 ^ 64 = Nat.pow 2 63 + Nat.pow 2 63 := rfl
  rw [ofMagnitude, UInt64.toNat_ofNat']
  apply Nat.mod_eq_of_lt
  omega

/-- The rank of a number that is not negative is its magnitude, and that of a negative one is its
magnitude the other way. -/
theorem rank_ofMagnitude (negative : Bool) (h : n ≤ infiniteMagnitude) :
    (ofMagnitude negative n).rank = if negative then -(n : Int) else n := by
  have hbound : infiniteMagnitude < Nat.pow 2 63 := by decide
  have hbits := toNat_bits_ofMagnitude negative h
  unfold rank isNegative magnitude
  rw [hbits]
  cases negative with
  | false =>
    rw [if_neg Bool.false_ne_true, if_neg Bool.false_ne_true, Nat.add_zero,
      decide_eq_false (by omega), if_neg Bool.false_ne_true, Nat.mod_eq_of_lt (by omega)]
  | true =>
    rw [if_pos rfl, if_pos rfl, decide_eq_true (by omega), if_pos rfl, Nat.add_mod_right,
      Nat.mod_eq_of_lt (by omega)]

theorem isNaN_ofMagnitude (negative : Bool) (h : n ≤ infiniteMagnitude) :
    (ofMagnitude negative n).isNaN = false := by
  have hbound : infiniteMagnitude < Nat.pow 2 63 := by decide
  unfold isNaN magnitude
  rw [toNat_bits_ofMagnitude negative h]
  apply decide_eq_false
  cases negative with
  | false =>
    rw [if_neg Bool.false_ne_true, Nat.add_zero, Nat.mod_eq_of_lt (by omega)]
    omega
  | true =>
    rw [if_pos rfl, Nat.add_mod_right, Nat.mod_eq_of_lt (by omega)]
    omega

theorem rank_ofInt (i : Int) : (ofInt i).rank =
    if i < 0 then -(nearestMagnitude i.natAbs 1 : Int) else nearestMagnitude i.natAbs 1 := by
  rw [ofInt, ofRatio, rank_ofMagnitude _ (nearestMagnitude_le _)]
  simp only [decide_eq_true_eq]

theorem nearestMagnitude_pos (h : 0 < n) : 0 < nearestMagnitude n 1 :=
  calc 0
    _ = nearestMagnitude 0 1 := nearestMagnitude_zero.symm
    _ < nearestMagnitude 1 1 := nearestMagnitude_lt Nat.zero_lt_one (by decide)
    _ ≤ nearestMagnitude n 1 := nearestMagnitude_mono h

/-- A greater integer has no nearest number of a lower rank. -/
theorem rank_ofInt_mono (h : i ≤ j) : (ofInt i).rank ≤ (ofInt j).rank := by
  rw [rank_ofInt, rank_ofInt]
  split_ifs with hi hj hj
  · -- Below zero the order of the magnitudes is the other way around.
    have hle : nearestMagnitude j.natAbs 1 ≤ nearestMagnitude i.natAbs 1 :=
      nearestMagnitude_mono (by omega)
    omega
  · omega
  · omega
  · have hle : nearestMagnitude i.natAbs 1 ≤ nearestMagnitude j.natAbs 1 :=
      nearestMagnitude_mono (by omega)
    omega

/-- Nearest numbers at the same place in the order are the same, since zero has only one sign. -/
theorem eq_of_rank_ofInt_eq (h : (ofInt i).rank = (ofInt j).rank) :
    nearestMagnitude i.natAbs 1 = nearestMagnitude j.natAbs 1 ∧ (i < 0 ↔ j < 0) := by
  rw [rank_ofInt, rank_ofInt] at h
  split_ifs at h with hi hj hj
  · exact ⟨by omega, iff_of_true hi hj⟩
  · have hpos : 0 < nearestMagnitude i.natAbs 1 := nearestMagnitude_pos (by omega)
    omega
  · have hpos : 0 < nearestMagnitude j.natAbs 1 := nearestMagnitude_pos (by omega)
    omega
  · exact ⟨by omega, iff_of_false hi hj⟩

/-- Integers whose nearest numbers have the same rank have the same nearest number. -/
theorem rank_ofInt_inj : (ofInt i).rank = (ofInt j).rank ↔ ofInt i = ofInt j := by
  refine ⟨fun h => ?_, fun h => by rw [h]⟩
  obtain ⟨hmagnitude, hsign⟩ := eq_of_rank_ofInt_eq h
  simp only [ofInt, ofRatio, hmagnitude, hsign]

/-- Integers are ordered like their nearest numbers, unless these are the same. -/
theorem compare?_ofInt (i j : Int) : (ofInt i).compare? (ofInt j) =
    some (if ofInt i = ofInt j then .eq else compare i j) := by
  have hnan (i : Int) : (ofInt i).isNaN = false := isNaN_ofMagnitude _ (nearestMagnitude_le _)
  rw [compare?, hnan, hnan, Bool.or_self, if_neg Bool.false_ne_true]
  congr 1
  by_cases heq : ofInt i = ofInt j
  · rw [if_pos heq, heq]
    exact compare_eq_iff_eq.mpr rfl
  · have hne : (ofInt i).rank ≠ (ofInt j).rank := fun h => heq (rank_ofInt_inj.mp h)
    rw [if_neg heq]
    rcases lt_trichotomy i j with hlt | rfl | hgt
    · rw [compare_lt_iff_lt.mpr hlt, compare_lt_iff_lt]
      exact lt_of_le_of_ne (rank_ofInt_mono hlt.le) hne
    · exact absurd rfl heq
    · rw [compare_gt_iff_gt.mpr hgt, compare_gt_iff_gt]
      exact lt_of_le_of_ne (rank_ofInt_mono hgt.le) hne.symm

/-- Up to 53 bits every integer has a nearest number of its own. -/
theorem ofInt_injOn (hi : i.natAbs ≤ 2 ^ 53) (hj : j.natAbs ≤ 2 ^ 53) (h : ofInt i = ofInt j) :
    i = j := by
  obtain ⟨hmagnitude, hsign⟩ := eq_of_rank_ofInt_eq (rank_ofInt_inj.mpr h)
  have habs : i.natAbs = j.natAbs := by
    rcases lt_trichotomy i.natAbs j.natAbs with hlt | heq | hgt
    · exact absurd hmagnitude (nearestMagnitude_lt hlt hj).ne
    · exact heq
    · exact absurd hmagnitude (nearestMagnitude_lt hgt hi).ne'
  omega

end Integers
end SqlMapper.Binary64
