/-!
Blank characters, by the Unicode property White_Space, and trimming. Every trimming function is
defined on the list of characters first.
-/

namespace SqlMapper.Text

/-- The 25 code points of the Unicode property White_Space. -/
def isBlank (c : Char) : Bool :=
  let n := c.toNat
  (0x09 ≤ n && n ≤ 0x0d) || n == 0x20 || n == 0x85 || n == 0xa0 || n == 0x1680 ||
    (0x2000 ≤ n && n ≤ 0x200a) || n == 0x2028 || n == 0x2029 || n == 0x202f || n == 0x205f ||
    n == 0x3000

def dropBlanks (cs : List Char) : List Char :=
  cs.dropWhile isBlank

def dropBlanksEnd (cs : List Char) : List Char :=
  (dropBlanks cs.reverse).reverse

def trimChars (cs : List Char) : List Char :=
  dropBlanksEnd (dropBlanks cs)

def trim (s : String) : String :=
  String.ofList (trimChars s.toList)

def isBlankText (s : String) : Bool :=
  s.toList.all isBlank

@[simp] theorem toList_trim (s : String) : (trim s).toList = trimChars s.toList := by
  simp [trim]

@[simp] theorem dropBlanks_nil : dropBlanks [] = [] := rfl

/-- Dropping leading blanks leaves nothing exactly when there are only blanks. -/
theorem dropBlanks_eq_nil_iff (cs : List Char) : dropBlanks cs = [] ↔ cs.all isBlank := by
  induction cs with
  | nil => simp
  | cons c cs ih =>
    cases h : isBlank c
    · simp [dropBlanks, h]
    · simpa [dropBlanks, h] using ih

theorem dropBlanks_eq_self_of_head {c : Char} {cs : List Char} (h : isBlank c = false) :
    dropBlanks (c :: cs) = c :: cs := by
  simp [dropBlanks, h]

end SqlMapper.Text
