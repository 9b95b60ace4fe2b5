import Mathlib.Data.List.TakeWhile
import SqlMapper.Text.Numeral

/-!
Runs of characters in front of other ones, and the numerals among them: a number written in decimal
is read back.
-/

namespace SqlMapper.Text

section Runs

variable {p : Char → Bool} {cs rest : List Char}

theorem takeWhile_eq_nil (hrest : ∀ c ∈ rest.head?, p c = false) : rest.takeWhile p = [] := by
  rcases rest with _ | ⟨c, rest⟩
  · rfl
  · exact List.takeWhile_cons_of_neg (by rw [hrest c rfl]; exact Bool.false_ne_true)

theorem dropWhile_eq_self (hrest : ∀ c ∈ rest.head?, p c = false) : rest.dropWhile p = rest := by
  have hsplit := List.takeWhile_append_dropWhile (p := p) (l := rest)
  rwa [takeWhile_eq_nil hrest, List.nil_append] at hsplit

/-- What cannot go on in a run does not change where the run ends. -/
theorem takeWhile_append_of_ends (hrest : ∀ c ∈ rest.head?, p c = false) (cs : List Char) :
    (cs ++ rest).takeWhile p = cs.takeWhile p := by
  rw [List.takeWhile_append, takeWhile_eq_nil hrest, List.append_nil]
  split
  · rename_i hall
    exact ((List.takeWhile_prefix p).eq_of_length hall).symm
  · rfl

theorem dropWhile_append_of_ends (hrest : ∀ c ∈ rest.head?, p c = false) (cs : List Char) :
    (cs ++ rest).dropWhile p = cs.dropWhile p ++ rest := by
  rw [List.dropWhile_append, dropWhile_eq_self hrest]
  split
  · rename_i hall
    rw [List.isEmpty_iff.mp hall, List.nil_append]
  · rfl

/-- A run ends at the first character that cannot go on in it. -/
theorem takeWhile_run (hcs : ∀ c ∈ cs, p c) (hrest : ∀ c ∈ rest.head?, p c = false) :
    (cs ++ rest).takeWhile p = cs := by
  rw [takeWhile_append_of_ends hrest, List.takeWhile_eq_self_iff.mpr hcs]

theorem dropWhile_run (hcs : ∀ c ∈ cs, p c) (hrest : ∀ c ∈ rest.head?, p c = false) :
    (cs ++ rest).dropWhile p = rest := by
  rw [List.dropWhile_append_of_pos hcs, dropWhile_eq_self hrest]

/-- A character of one kind is none of those that are not of this kind. -/
theorem notMem_of_all_not {c : Char} (hc : p c) (hcs : cs.all (!p ·)) : c ∉ cs := by
  intro hmem
  have hother := List.all_eq_true.mp hcs c hmem
  rw [hc] at hother
  exact nomatch hother

end Runs

theorem isDigit_iff {c : Char} : isDigit c ↔ 48 ≤ c.toNat ∧ c.toNat ≤ 57 := by
  simp [isDigit, Char.le_def, UInt32.le_iff_toNat_le]

theorem numeral?_eq_some {cs : List Char} {n : Nat} :
    numeral? cs = some n ↔ cs ≠ [] ∧ (∀ c ∈ cs, isDigit c) ∧ digitsValue cs = n := by
  unfold numeral?
  split
  · rename_i h
    rw [Option.some_inj, ← List.all_eq_true]
    exact ⟨fun hn => ⟨h.1, h.2, hn⟩, fun hn => hn.2.2⟩
  · rename_i h
    rw [← List.all_eq_true]
    exact ⟨nofun, fun hn => absurd ⟨hn.1, hn.2.1⟩ h⟩

theorem isDigit_of_mem_decimal {n : Nat} {c : Char} (h : c ∈ Nat.toDigits 10 n) : isDigit c := by
  have hdigit : c.isDigit := Nat.isDigit_of_mem_toDigits (by decide) (by decide) h
  rw [isDigit_iff]
  simpa [Char.isDigit, UInt32.le_iff_toNat_le] using hdigit

theorem numeral?_decimal (n : Nat) : numeral? (Nat.toDigits 10 n) = some n := by
  rw [numeral?_eq_some]
  refine ⟨Nat.toDigits_ne_nil, ?_, Nat.ofDigitChars_ten_toDigits⟩
  intro c hc
  exact isDigit_of_mem_decimal hc

theorem exists_decimal_eq (n : Nat) : ∃ d ds, Nat.toDigits 10 n = d :: ds ∧ isDigit d := by
  obtain ⟨d, ds, hds⟩ := List.exists_cons_of_ne_nil (Nat.toDigits_ne_nil (b := 10) (n := n))
  refine ⟨d, ds, hds, ?_⟩
  apply isDigit_of_mem_decimal (n := n)
  rw [hds]
  exact List.mem_cons_self

/-- Only zero begins with a zero. -/
theorem head?_decimal_ne {n : Nat} (hn : 0 < n) : (Nat.toDigits 10 n).head? ≠ some '0' := by
  induction n using Nat.strongRecOn with
  | ind n ih =>
    rcases Nat.lt_or_ge n 10 with hlt | hge
    · have hdigits : ∀ d < 10, 0 < d → [Nat.digitChar d].head? ≠ some '0' := by decide
      rw [Nat.toDigits_of_lt_base hlt]
      exact hdigits n hlt hn
    · -- The digits of `n` are those of `n / 10` and one more behind them.
      have hpos : 0 < n / 10 := by omega
      have hfront := ih (n / 10) (by omega) hpos
      obtain ⟨d, ds, hds, -⟩ := exists_decimal_eq (n / 10)
      rw [hds] at hfront
      rw [Nat.toDigits_of_base_le (by decide) hge, hds]
      exact hfront

end SqlMapper.Text
