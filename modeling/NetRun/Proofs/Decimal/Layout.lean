import NetRun.Decimal.Layout
import NetRun.Proofs.Decimal.Natural
import NetRun.Text.Blank

/-!
# The characters of a real number

Whatever double is written without a mark on its exponent, as in a table or in
running text, its text consists of digits, a point, signs, the `e` of an exponent
and the letters of the words for infinity and for what is no number.  None of
these is a blank, so the text is one field.
-/

namespace NetRun.Decimal

/-- The character stands in the text of some real number. -/
def isNumeral
    (c : Char) :
    Bool :=
  c.isDigit || "-.eNaNinf".toList.contains c

theorem isNumeral_of_isDigit
    {c : Char}
    (digit : c.isDigit = true) :
    isNumeral c = true := by
  rw [isNumeral, digit, Bool.true_or]

theorem isBlank_of_isNumeral
    {c : Char}
    (numeral : isNumeral c = true) :
    Text.isBlank c = false := by
  rw [isNumeral, Bool.or_eq_true, List.contains_iff_mem] at numeral
  rcases numeral with digit | letter
  · exact Text.isBlank_eq_false_of_isDigit digit
  · have solid : ("-.eNaNinf".toList.all fun c => !Text.isBlank c) = true := by decide
    exact (Bool.not_eq_true' _).mp (List.all_eq_true.1 solid c letter)

theorem isNumeral_of_mem_toString
    {number : Int}
    {c : Char}
    (listed : c ∈ (toString number).toList) :
    isNumeral c = true := by
  cases number with
  | ofNat n => exact isNumeral_of_isDigit (isDigit_of_mem_toString (n := n) listed)
  | negSucc n =>
      change c ∈ ("-" ++ toString (n + 1)).toList at listed
      rw [String.toList_append] at listed
      rcases List.mem_append.1 listed with sign | digit
      · rw [List.mem_singleton.1 sign]
        decide
      · exact isNumeral_of_isDigit (isDigit_of_mem_toString digit)

/-- The text has characters, all of them characters of real numbers. -/
structure IsNumeric
    (text : List Char) :
    Prop where
  nonempty : text ≠ []
  numerals : ∀ c ∈ text, isNumeral c = true

/-- A text that is given is looked through. -/
theorem isNumeric_of_all
    {text : List Char}
    (nonempty : text.isEmpty = false)
    (numerals : text.all isNumeral = true) :
    IsNumeric text :=
  ⟨List.isEmpty_eq_false_iff.1 nonempty, List.all_eq_true.1 numerals⟩

section Digits

variable
    {digits : List Char}
    (areDigits : ∀ c ∈ digits, c.isDigit = true)

include areDigits

theorem isNumeric_placePoint
    (nonempty : digits ≠ [])
    (keepFraction : Bool)
    (point : Int) :
    IsNumeric (placePoint keepFraction digits point) := by
  have digit : ∀ c ∈ digits, isNumeral c = true :=
    fun c isOne => isNumeral_of_isDigit (areDigits c isOne)
  have zero (count : Nat) : ∀ c ∈ List.replicate count '0', isNumeral c = true := by
    intro c isZero
    rw [List.eq_of_mem_replicate isZero]
    decide
  rw [placePoint]
  split
  case isTrue =>
    refine ⟨List.cons_ne_nil _ _, ?_⟩
    simp only [List.forall_mem_cons, List.forall_mem_append]
    exact ⟨by decide, by decide, zero _, digit⟩
  case isFalse =>
    split
    case isTrue =>
      refine ⟨by simp [nonempty], ?_⟩
      simp only [List.forall_mem_append]
      refine ⟨⟨digit, zero _⟩, ?_⟩
      cases keepFraction with
      | true => exact (isNumeric_of_all rfl (by decide)).numerals
      | false => exact List.forall_mem_nil _
    case isFalse =>
      refine ⟨by simp, ?_⟩
      simp only [List.forall_mem_append, List.forall_mem_cons]
      exact ⟨fun c isOne => digit c (List.mem_of_mem_take isOne), by decide,
        fun c isOne => digit c (List.mem_of_mem_drop isOne)⟩

theorem isNumeric_placeExponent
    (exponent : Int) :
    IsNumeric (placeExponent "" digits exponent) := by
  have digit : ∀ c ∈ digits, isNumeral c = true :=
    fun c isOne => isNumeral_of_isDigit (areDigits c isOne)
  refine ⟨by simp [placeExponent], ?_⟩
  simp only [placeExponent, String.toList_empty, ite_self, List.forall_mem_append,
    List.forall_mem_cons]
  refine ⟨⟨⟨fun c isOne => digit c (List.mem_of_mem_take isOne), ?_⟩, by decide, List.forall_mem_nil _⟩,
    fun c isOne => isNumeral_of_mem_toString isOne⟩
  split
  case isTrue => exact fun c impossible => absurd impossible List.not_mem_nil
  case isFalse =>
    exact List.forall_mem_cons.2
      ⟨by decide, fun c isOne => digit c (List.mem_of_mem_drop isOne)⟩

end Digits

section Unmarked

variable
    {layout : Layout}
    (unmarked : layout.exponentMark = "")

include unmarked

theorem isNumeric_positive
    (value : Float) :
    IsNumeric (layout.positive value) := by
  have areDigits (n : Nat) : ∀ c ∈ Nat.toDigits 10 n, c.isDigit = true :=
    fun c isOne => Nat.isDigit_of_mem_toDigits (Nat.succ_pos 9) (Nat.le_refl 10) isOne
  rw [Layout.positive, unmarked]
  dsimp only
  split
  · exact isNumeric_placePoint (areDigits _) Nat.toDigits_ne_nil _ _
  · exact isNumeric_placeExponent (areDigits _) _

/-- The text of a real number has a character, and no other than those of numbers. -/
theorem isNumeric_write_of_unmarked
    (value : Float) :
    IsNumeric (layout.write value).toList := by
  have magnitude :
      IsNumeric
        (if value.isInf then "inf".toList
        else if value == 0.0 then (if layout.keepFraction then "0.0" else "0").toList
        else layout.positive (signed (isNegative value) value)) := by
    split
    · exact isNumeric_of_all (by decide) (by decide)
    · split
      · cases layout.keepFraction with
        | true => exact isNumeric_of_all (by decide) (by decide)
        | false => exact isNumeric_of_all (by decide) (by decide)
      · exact isNumeric_positive unmarked _
  rw [Layout.write]
  split
  case isTrue => exact isNumeric_of_all (by decide) (by decide)
  case isFalse =>
    rw [String.toList_ofList]
    split
    case isTrue =>
      exact ⟨List.cons_ne_nil _ _, List.forall_mem_cons.2 ⟨by decide, magnitude.numerals⟩⟩
    case isFalse => exact magnitude

end Unmarked

/-- The text of a real number in a table has a character, and no other than those of numbers. -/
theorem isNumeric_write
    (value : Float) :
    IsNumeric (tabular.write value).toList :=
  isNumeric_write_of_unmarked rfl value

end NetRun.Decimal
