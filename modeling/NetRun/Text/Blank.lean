/-!
# Blank characters

Tables separate their fields by blanks.  The class is the Unicode property
`White_Space`: twenty-five characters, among them the line ends, the
no-break spaces and the ideographic space.
-/

namespace NetRun.Text

/-- The character has the Unicode property `White_Space`. -/
def isBlank
    (c : Char) :
    Bool :=
  let n := c.toNat
  (9 ≤ n && n ≤ 13) || n == 0x20 || n == 0x85 || n == 0xA0 || n == 0x1680 ||
    (0x2000 ≤ n && n ≤ 0x200A) || n == 0x2028 || n == 0x2029 || n == 0x202F ||
    n == 0x205F || n == 0x3000

/-- A decimal digit is no blank. -/
theorem isBlank_eq_false_of_isDigit
    {c : Char}
    (h : c.isDigit = true) :
    isBlank c = false := by
  simp only [Char.isDigit, Bool.and_eq_true, decide_eq_true_eq, ge_iff_le,
    UInt32.le_iff_toNat_le] at h
  obtain ⟨lower, upper⟩ := h
  have low : 48 ≤ c.toNat := lower
  have high : c.toNat ≤ 57 := upper
  simp only [isBlank, Bool.or_eq_false_iff, Bool.and_eq_false_iff,
    decide_eq_false_iff_not, beq_eq_false_iff_ne, ne_eq]
  omega

end NetRun.Text
