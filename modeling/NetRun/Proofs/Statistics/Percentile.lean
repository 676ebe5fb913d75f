import NetRun.Proofs.Statistics.Ascending
import NetRun.Proofs.Traversal
import NetRun.Statistics.Row

/-!
# Statistics of doubles

Values that are given have statistics once they are in order: the places between
which a percentile of a table is read are places of the list, however long the
list is and however the rank is rounded.
-/

namespace NetRun

open Doubles

/--
The percentage is at most 99, and its rank among one place and among two is at
the first of them.
-/
def isInnerPercent
    (percent : Float) :
    Bool :=
  isShare 8918027982119056 (-53) (clampPercent percent / Quantity.ofCount 100) &&
    decide (Quantity.wholePart (percentRank 1 percent) = 0) &&
    decide (Quantity.wholePart (percentRank 2 percent) = 0) &&
    !decide (Quantity.ofCount 0 < percentRank 1 percent)

section Places

variable
    {percent : Float}
    (isInner : isInnerPercent percent = true)

include isInner

/-- Both places next to an inner rank are among the places. -/
theorem places_lt
    {count : Nat}
    (some : 0 < count) :
    Quantity.wholePart (percentRank count percent) < count ∧
      (Quantity.ofCount (Quantity.wholePart (percentRank count percent)) <
          percentRank count percent →
        Quantity.wholePart (percentRank count percent) + 1 < count) := by
  simp only [isInnerPercent, Bool.and_eq_true, decide_eq_true_iff, Bool.not_eq_true',
    decide_eq_false_iff_not] at isInner
  rcases isInner with ⟨⟨⟨isPart, single⟩, first⟩, exact⟩
  obtain ⟨count, rfl⟩ : ∃ rest, count = rest + 1 := ⟨count - 1, by omega⟩
  rcases count with _ | _ | count
  · rw [single]
    exact ⟨Nat.zero_lt_one, fun above => absurd above exact⟩
  · rw [first]
    exact ⟨Nat.two_pos, fun _ => Nat.one_lt_two⟩
  · have below : Quantity.wholePart (percentRank (count + 1 + 1 + 1) percent) < count + 2 :=
      wholePart_share_mul_lt isPart (by omega)
    exact ⟨by omega, fun _ => by omega⟩

/-- Values in order, of which there are some, have a value at every inner percentage. -/
theorem rankedValue?_isSome
    {sorted : List Float}
    (given : sorted ≠ []) :
    (rankedValue? sorted percent).isSome = true := by
  rcases places_lt isInner (List.length_pos_of_ne_nil given) with ⟨lower, upper⟩
  have upperPlace :
      (if Quantity.ofCount (Quantity.wholePart (percentRank sorted.length percent)) <
            percentRank sorted.length percent then
          Quantity.wholePart (percentRank sorted.length percent) + 1
        else Quantity.wholePart (percentRank sorted.length percent)) < sorted.length := by
    split
    case isTrue above => exact upper above
    case isFalse => exact lower
  rw [rankedValue?]
  simp only [List.getElem?_eq_getElem lower, List.getElem?_eq_getElem upperPlace,
    Option.bind_eq_bind, Option.bind_some, Option.pure_def, Option.isSome_some]

end Places

namespace StatsRow

variable
    {key : String}
    {average : Float}
    {values : List Float}

/-- The statistics of values are read off the same ascending list. -/
theorem withAverage?_eq
    (key : String)
    (average : Float)
    (values : List Float) :
    withAverage? key average values =
      (ascending values).map fun sorted => do
        return ⟨key, average, ← rankedValue? sorted (Quantity.ofCount 50),
          ← rankedValue? sorted (Quantity.ofCount 99), ← rankedValue? sorted (Quantity.ofCount 1),
          ← rankedValue? sorted (Quantity.ofCount 10), values.length⟩ := by
  rw [withAverage?]
  simp only [percentile?]
  cases ascending values with
  | error crash => rfl
  | ok sorted => rfl

/-- Values have no statistics for want of an order only. -/
theorem ascending_of_withAverage?
    {crash : Crash}
    (fails : withAverage? key average values = .error crash) :
    ascending values = .error crash := by
  rwa [withAverage?_eq, map_eq_error_iff] at fails

theorem values_of_withAverage?
    {row : StatsRow Float}
    (made : withAverage? key average values = .ok (some row)) :
    row.key = key ∧ row.average = average ∧ row.count = values.length := by
  rw [withAverage?_eq, map_eq_ok_iff] at made
  rcases made with ⟨sorted, -, made⟩
  simp only [Option.bind_eq_bind, Option.bind_eq_some_iff, Option.pure_def,
    Option.some.injEq] at made
  rcases made with ⟨_, -, _, -, _, -, _, -, rfl⟩
  exact ⟨rfl, rfl, rfl⟩

/-- Only of no values there are no statistics. -/
theorem eq_nil_of_withAverage?
    (none : withAverage? key average values = .ok none) :
    values = [] := by
  rw [withAverage?_eq, map_eq_ok_iff] at none
  rcases none with ⟨sorted, sorts, none⟩
  by_contra given
  have listed : sorted ≠ [] := by
    rintro rfl
    exact given (perm_of_ascending sorts).nil_eq.symm
  have inner (percent : Float) (isInner : isInnerPercent percent = true) :
      ∃ value, rankedValue? sorted percent = some value :=
    Option.isSome_iff_exists.1 (rankedValue?_isSome isInner listed)
  rcases inner (Quantity.ofCount 50) (by decide +kernel) with ⟨median, atMedian⟩
  rcases inner (Quantity.ofCount 99) (by decide +kernel) with ⟨p99, atP99⟩
  rcases inner (Quantity.ofCount 1) (by decide +kernel) with ⟨p1, atP1⟩
  rcases inner (Quantity.ofCount 10) (by decide +kernel) with ⟨p10, atP10⟩
  rw [atMedian, atP99, atP1, atP10] at none
  cases none

/-- Values that are given are summed up around their mean. -/
theorem ofValues?_eq_withAverage?
    (given : values ≠ [])
    (key : String) :
    ofValues? key values =
      withAverage? key (total values / Quantity.ofCount values.length) values := by
  rw [ofValues?, mean?, if_neg (mt List.isEmpty_iff.1 given)]

theorem ascending_of_ofValues?
    {crash : Crash}
    (fails : ofValues? key values = .error crash) :
    ascending values = .error crash := by
  rcases eq_or_ne values [] with rfl | given
  · cases fails
  · rw [ofValues?_eq_withAverage? given] at fails
    exact ascending_of_withAverage? fails

/-- A row has the key, the mean and the number of the values that it sums up. -/
theorem values_of_ofValues?
    {row : StatsRow Float}
    (made : ofValues? key values = .ok (some row)) :
    row.key = key ∧ mean? values = some row.average ∧ row.count = values.length := by
  rw [ofValues?] at made
  split at made
  case h_1 => cases made
  case h_2 average isMean =>
    rcases values_of_withAverage? made with ⟨keyed, averaged, counted⟩
    exact ⟨keyed, averaged ▸ isMean, counted⟩

theorem eq_nil_of_ofValues?
    (none : ofValues? key values = .ok none) :
    values = [] := by
  by_contra given
  rw [ofValues?_eq_withAverage? given] at none
  exact given (eq_nil_of_withAverage? none)

end StatsRow

end NetRun
