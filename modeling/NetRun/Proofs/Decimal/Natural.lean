import NetRun.Decimal.Natural
import NetRun.Proofs.Text.Pieces

/-!
# Numbers that are written and read

A number is written by its decimal digits, without a sign and without a
leading zero.  Reading the digits gives the number back.
-/

namespace NetRun.Decimal

theorem toList_toString
    (n : Nat) :
    (toString n).toList = Nat.toDigits 10 n := by
  rw [Nat.toString_eq_repr, Nat.toList_repr]

theorem isDigit_of_mem_toString
    {n : Nat}
    {c : Char}
    (listed : c ∈ (toString n).toList) :
    c.isDigit = true := by
  rw [toList_toString] at listed
  exact Nat.isDigit_of_mem_toDigits (Nat.succ_pos 9) (Nat.le_refl 10) listed

/-- The digits of a number have the number as their value. -/
theorem digitsValue_toDigits
    (n : Nat) :
    digitsValue (Nat.toDigits 10 n) = n :=
  Nat.ofDigitChars_toDigits (Nat.one_lt_succ_succ 8) (Nat.le_refl 10)

theorem dropPlus_of_digits
    {text : List Char}
    (digits : ∀ c ∈ text, c.isDigit = true) :
    dropPlus text = text := by
  unfold dropPlus
  split
  case h_1 rest => exact absurd (digits '+' List.mem_cons_self) (by decide)
  case h_2 => rfl

theorem unsigned?_toString
    (n : Nat) :
    unsigned? (toString n).toList = some n := by
  have digits : ∀ c ∈ (toString n).toList, c.isDigit = true :=
    fun c listed => isDigit_of_mem_toString listed
  rw [toList_toString] at digits ⊢
  rw [unsigned?, dropPlus_of_digits digits, natural?, digitsValue_toDigits, List.isEmpty_eq_false_iff.2
    Nat.toDigits_ne_nil, List.all_eq_true.2 digits]
  rfl

/-- The digits of a number end where a text goes on with no digit. -/
theorem toString_append_inj
    {n m : Nat}
    {rest other : List Char}
    (restStops : rest.takeWhile Char.isDigit = [])
    (otherStops : other.takeWhile Char.isDigit = [])
    (same : (toString n).toList ++ rest = (toString m).toList ++ other) :
    n = m ∧ rest = other := by
  rcases Text.run_append_inj (fun _ listed => isDigit_of_mem_toString listed)
      (fun _ listed => isDigit_of_mem_toString listed) restStops otherStops same with
    ⟨digits, rests⟩
  have values := congrArg unsigned? digits
  rw [unsigned?_toString, unsigned?_toString, Option.some.injEq] at values
  exact ⟨values, rests⟩

theorem eq_dropPlus_or
    (text : List Char) :
    text = dropPlus text ∨ text = '+' :: dropPlus text := by
  unfold dropPlus
  split
  · exact Or.inr rfl
  · exact Or.inl rfl

/-- A number is read from one or more characters, digits and perhaps a plus sign. -/
theorem digits_of_unsigned?_eq_some
    {text : List Char}
    {n : Nat}
    (reads : unsigned? text = some n) :
    text ≠ [] ∧ ∀ c ∈ text, c = '+' ∨ c.isDigit = true := by
  rw [unsigned?, natural?] at reads
  split at reads
  case isFalse => cases reads
  case isTrue digits =>
    rw [Bool.and_eq_true, Bool.not_eq_true', List.isEmpty_eq_false_iff, List.all_eq_true] at digits
    rcases digits with ⟨nonempty, areDigits⟩
    rcases eq_dropPlus_or text with same | plus
    · rw [same]
      exact ⟨nonempty, fun c listed => Or.inr (areDigits c listed)⟩
    · rw [plus]
      exact ⟨List.cons_ne_nil _ _, fun c listed =>
        (List.mem_cons.1 listed).imp_right (areDigits c)⟩

@[simp]
theorem word32?_toString
    (word : UInt32) :
    word32? (toString word) = some word := by
  change (unsigned? (toString word.toNat).toList).bind _ = _
  rw [unsigned?_toString, Option.bind_some, if_pos word.toNat_lt, UInt32.ofNat_toNat]

@[simp]
theorem word64?_toString
    (word : UInt64) :
    word64? (toString word) = some word := by
  change (unsigned? (toString word.toNat).toList).bind _ = _
  rw [unsigned?_toString, Option.bind_some, if_pos word.toNat_lt, UInt64.ofNat_toNat]

/-! ## Texts of numbers -/

/-- The text is one or more digits of the number, perhaps behind a plus sign. -/
def SpellsNatural
    (text : List Char)
    (n : Nat) :
    Prop :=
  ∃ digits,
    (text = digits ∨ text = '+' :: digits) ∧ digits ≠ [] ∧
      (∀ c ∈ digits, c.isDigit = true) ∧ digitsValue digits = n

theorem natural?_eq_some_iff
    {text : List Char}
    {n : Nat} :
    natural? text = some n ↔
      text ≠ [] ∧ (∀ c ∈ text, c.isDigit = true) ∧ digitsValue text = n := by
  rw [natural?]
  split
  case isTrue digits =>
    rw [Bool.and_eq_true, Bool.not_eq_true', List.isEmpty_eq_false_iff, List.all_eq_true] at digits
    rw [Option.some.injEq, and_iff_right digits.1, and_iff_right digits.2]
  case isFalse none =>
    rw [Bool.and_eq_true, Bool.not_eq_true', List.isEmpty_eq_false_iff, List.all_eq_true] at none
    constructor
    · rintro ⟨⟩
    · rintro ⟨nonempty, areDigits, -⟩
      exact absurd ⟨nonempty, areDigits⟩ none

/-- A number is read from exactly the texts that spell it. -/
theorem unsigned?_eq_some_iff
    {text : List Char}
    {n : Nat} :
    unsigned? text = some n ↔ SpellsNatural text n := by
  rw [unsigned?, natural?_eq_some_iff]
  constructor
  · intro digits
    exact ⟨dropPlus text, eq_dropPlus_or text, digits⟩
  · rintro ⟨digits, rfl | rfl, nonempty, areDigits, value⟩
    · rw [dropPlus_of_digits areDigits]
      exact ⟨nonempty, areDigits, value⟩
    · exact ⟨nonempty, areDigits, value⟩

theorem word32?_eq_some_iff
    {text : String}
    {word : UInt32} :
    word32? text = some word ↔ SpellsNatural text.toList word.toNat := by
  rw [← unsigned?_eq_some_iff, word32?, Option.bind_eq_some_iff]
  constructor
  · rintro ⟨n, isNumber, fits⟩
    split at fits
    case isTrue small =>
      cases fits
      rwa [UInt32.toNat_ofNat_of_lt' small]
    case isFalse => cases fits
  · intro isNumber
    exact ⟨word.toNat, isNumber, by rw [if_pos word.toNat_lt, UInt32.ofNat_toNat]⟩

theorem word64?_eq_some_iff
    {text : String}
    {word : UInt64} :
    word64? text = some word ↔ SpellsNatural text.toList word.toNat := by
  rw [← unsigned?_eq_some_iff, word64?, Option.bind_eq_some_iff]
  constructor
  · rintro ⟨n, isNumber, fits⟩
    split at fits
    case isTrue small =>
      cases fits
      rwa [UInt64.toNat_ofNat_of_lt' small]
    case isFalse => cases fits
  · intro isNumber
    exact ⟨word.toNat, isNumber, by rw [if_pos word.toNat_lt, UInt64.ofNat_toNat]⟩

end NetRun.Decimal
