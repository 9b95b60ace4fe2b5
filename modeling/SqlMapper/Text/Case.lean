import SqlMapper.Text.Blank

/-!
Upper case of ASCII letters. All other characters stay as they are, so the number of characters and
of bytes stays the same.
-/

namespace SqlMapper.Text

def upper (cs : List Char) : List Char :=
  cs.map Char.toUpper

@[simp] theorem length_upper (cs : List Char) : (upper cs).length = cs.length := by
  simp [upper]

@[simp] theorem upper_append (cs ds : List Char) : upper (cs ++ ds) = upper cs ++ upper ds := by
  simp [upper]

/-- Capital letters are no blanks, so case does not matter for blanks. -/
theorem isBlank_toUpper (c : Char) : isBlank c.toUpper = isBlank c := by
  unfold Char.toUpper
  split
  · rename_i hlower
    have hbounds : 97 ≤ c.toNat ∧ c.toNat ≤ 122 := by
      simpa [UInt32.le_iff_toNat_le] using hlower
    have hcapital (h : (c.val + ('A'.val - 'a'.val)).isValidChar) :
        (Char.mk (c.val + ('A'.val - 'a'.val)) h).toNat = c.toNat - 32 := by
      have hoffset : ('A'.val - 'a'.val).toNat = 4294967264 := rfl
      have hval : c.val.toNat = c.toNat := rfl
      change (c.val + ('A'.val - 'a'.val)).toNat = c.toNat - 32
      rw [UInt32.toNat_add, hval, hoffset]
      omega
    rw [isBlank, hcapital, isBlank, Bool.eq_iff_iff]
    simp only [Bool.or_eq_true, Bool.and_eq_true, decide_eq_true_eq, beq_iff_eq]
    omega
  · rfl

end SqlMapper.Text
