import NetRun.Workload.Keystream

/-!
# Draws stay below their bound

A word times a bound has a high half below the bound, so every number that is
accepted is below the bound; the zero that stands for giving up is so as well.
-/

namespace NetRun

namespace Uniform

variable
    {bound : UInt32}

theorem candidate_lt
    {word number : UInt32}
    (positive : 0 < bound)
    (accepted : candidate bound word = some number) :
    number < bound := by
  rw [candidate] at accepted
  split at accepted
  case isFalse => cases accepted
  case isTrue =>
    cases accepted
    have high : word.toNat * bound.toNat / 4294967296 < bound.toNat := by
      apply Nat.div_lt_of_lt_mul
      exact Nat.mul_lt_mul_of_pos_right word.toNat_lt (UInt32.lt_iff_toNat_lt.1 positive)
    rw [UInt32.lt_iff_toNat_lt, UInt32.toNat_ofNat_of_lt' (Nat.lt_trans high bound.toNat_lt_size)]
    exact high

/-- However many words are tried, the number drawn is below the bound. -/
theorem below_lt
    {σ : Type}
    (next : σ → UInt32 × σ)
    (positive : 0 < bound)
    (tries : Nat)
    (stream : σ) :
    (below next bound tries stream).1 < bound := by
  induction tries generalizing stream with
  | zero => exact positive
  | succ tries induction =>
      rw [below]
      dsimp only
      split
      case h_1 number accepted => exact candidate_lt positive accepted
      case h_2 => exact induction _

theorem Supply.below_lt
    (positive : 0 < bound)
    (supply : Supply) :
    (supply.below bound).1 < bound :=
  Uniform.below_lt Supply.next positive _ supply

end Uniform

/-- The draws of the program are below their bound. -/
theorem Keystream.Stream.below_lt
    {bound : UInt32}
    (positive : 0 < bound)
    (stream : Stream) :
    (stream.below bound).1 < bound :=
  Uniform.below_lt Stream.next positive _ stream

end NetRun
