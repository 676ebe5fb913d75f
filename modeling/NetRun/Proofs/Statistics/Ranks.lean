import NetRun.Proofs.Statistics.Ascending
import NetRun.Statistics.Row

/-!
# Percentiles of exact numbers

With exact arithmetic a percentile is a value between two neighbours of the
ascending list of the values.  It grows with the percentage, from the least of the
values to the greatest, and does not depend on the order in which they are given.
-/

namespace NetRun

/-- Exact numbers are counted, cut and summed up without rounding. -/
instance : Quantity ℚ where
  ofCount count := count
  wholePart value := ⌊value⌋₊
  emptySum := 0

/-! ## Values between places -/

/-- The value at a rank: between two places it is interpolated linearly. -/
def valueAt
    (places : ℕ → ℚ)
    (rank : ℚ) :
    ℚ :=
  places ⌊rank⌋₊ + (places ⌈rank⌉₊ - places ⌊rank⌋₊) * (rank - ⌊rank⌋₊)

/-- At a whole rank there is nothing to interpolate. -/
theorem valueAt_natCast
    (places : ℕ → ℚ)
    (rank : ℕ) :
    valueAt places rank = places rank := by
  rw [valueAt, Nat.floor_natCast, Nat.ceil_natCast, sub_self, zero_mul, add_zero]

section Places

variable
    {places : ℕ → ℚ}
    {last : ℕ}
    (ascend : MonotoneOn places (Set.Iic last))

theorem ceil_le_of_le
    {rank : ℚ}
    (inside : rank ≤ last) :
    ⌈rank⌉₊ ≤ last :=
  Nat.ceil_le.2 inside

include ascend

/-- The places next to a rank ascend. -/
theorem floor_place_le_ceil_place
    {rank : ℚ}
    (inside : rank ≤ last) :
    places ⌊rank⌋₊ ≤ places ⌈rank⌉₊ :=
  have below : ⌊rank⌋₊ ≤ ⌈rank⌉₊ := Nat.floor_le_ceil rank
  ascend (below.trans (ceil_le_of_le inside)) (ceil_le_of_le inside) below

theorem floor_place_le_valueAt
    {rank : ℚ}
    (nonneg : 0 ≤ rank)
    (inside : rank ≤ last) :
    places ⌊rank⌋₊ ≤ valueAt places rank := by
  have step := sub_nonneg.2 (floor_place_le_ceil_place ascend inside)
  have part := sub_nonneg.2 (Nat.floor_le nonneg)
  rw [valueAt]
  exact le_add_of_nonneg_right (mul_nonneg step part)

theorem valueAt_le_ceil_place
    {rank : ℚ}
    (inside : rank ≤ last) :
    valueAt places rank ≤ places ⌈rank⌉₊ := by
  have step := sub_nonneg.2 (floor_place_le_ceil_place ascend inside)
  have part : rank - ⌊rank⌋₊ ≤ 1 := by
    have := Nat.lt_floor_add_one rank
    linarith
  have share := mul_le_mul_of_nonneg_left part step
  rw [valueAt]
  linarith

/-- The value grows with the rank, between two places and from one pair of them to the next. -/
theorem monotoneOn_valueAt :
    MonotoneOn (valueAt places) (Set.Icc 0 last) := by
  rintro low ⟨lowNonneg, lowInside⟩ high ⟨highNonneg, highInside⟩ inOrder
  rcases (Nat.floor_mono inOrder).eq_or_lt with sameFloor | apart
  · rcases (Nat.floor_le lowNonneg).eq_or_lt with whole | above
    · -- The lower rank is whole, and the value at the other one is not below its place.
      have atPlace : valueAt places low = places ⌊high⌋₊ := by
        rw [← sameFloor, ← whole, valueAt_natCast, Nat.floor_natCast]
      rw [atPlace]
      exact floor_place_le_valueAt ascend highNonneg highInside
    · -- Both ranks are between the same two places.
      have lowCeil : ⌈low⌉₊ = ⌊low⌋₊ + 1 :=
        (Nat.ceil_le_floor_add_one low).antisymm (Nat.lt_ceil.2 above)
      have highCeil : ⌈high⌉₊ = ⌊low⌋₊ + 1 := by
        rw [sameFloor]
        apply (Nat.ceil_le_floor_add_one high).antisymm
        apply Nat.lt_ceil.2
        rw [← sameFloor]
        exact above.trans_le inOrder
      have step := sub_nonneg.2 (floor_place_le_ceil_place ascend lowInside)
      rw [lowCeil] at step
      rw [valueAt, valueAt, lowCeil, highCeil, ← sameFloor]
      have share := mul_le_mul_of_nonneg_left (sub_le_sub_right inOrder (⌊low⌋₊ : ℚ)) step
      linarith
  · -- A place of the list stands between the two ranks.
    have between : ⌈low⌉₊ ≤ ⌊high⌋₊ :=
      (Nat.ceil_le_floor_add_one low).trans apart
    have floorInside : ⌊high⌋₊ ≤ last :=
      (Nat.floor_le_ceil high).trans (ceil_le_of_le highInside)
    calc
      valueAt places low ≤ places ⌈low⌉₊ := valueAt_le_ceil_place ascend lowInside
      _ ≤ places ⌊high⌋₊ := ascend (between.trans floorInside) floorInside between
      _ ≤ valueAt places high := floor_place_le_valueAt ascend highNonneg highInside

end Places

/-- One place above the floor of a rank that is not whole stands its ceiling. -/
theorem floor_step_eq_ceil
    {rank : ℚ}
    (nonneg : 0 ≤ rank) :
    (if (⌊rank⌋₊ : ℚ) < rank then ⌊rank⌋₊ + 1 else ⌊rank⌋₊) = ⌈rank⌉₊ := by
  split
  case isTrue above => exact ((Nat.ceil_le_floor_add_one rank).antisymm (Nat.lt_ceil.2 above)).symm
  case isFalse notAbove =>
    have whole : (⌊rank⌋₊ : ℚ) = rank := (Nat.floor_le nonneg).antisymm (not_lt.1 notAbove)
    rw [← whole, Nat.floor_natCast, Nat.ceil_natCast]

/-! ## Ranks of percentages -/

theorem clampPercent_eq
    (percent : ℚ) :
    clampPercent percent = min (max percent 0) 100 := by
  change
    (if (100 : ℚ) < (if percent < 0 then 0 else percent) then 100
      else (if percent < 0 then 0 else percent)) = _
  have raised : (if percent < 0 then 0 else percent) = max percent 0 := by
    rw [max_comm, max_def]
    split <;> split <;> linarith
  rw [raised, min_comm, min_def]
  split <;> split <;> linarith

theorem percentRank_succ
    (last : ℕ)
    (percent : ℚ) :
    percentRank (last + 1) percent = min (max percent 0) 100 / 100 * last := by
  rw [percentRank, clampPercent_eq]
  rfl

section Ranks

variable
    {last : ℕ}
    {percent : ℚ}

theorem percentRank_mem
    (last : ℕ)
    (percent : ℚ) :
    percentRank (last + 1) percent ∈ Set.Icc (0 : ℚ) last := by
  have nonneg : (0 : ℚ) ≤ min (max percent 0) 100 := le_min (le_max_right _ _) (by norm_num)
  have inside : min (max percent 0) 100 / 100 ≤ (1 : ℚ) :=
    (div_le_one (by norm_num)).2 (min_le_right _ _)
  rw [percentRank_succ]
  constructor
  · positivity
  · exact mul_le_of_le_one_left (Nat.cast_nonneg last) inside

theorem percentRank_mono
    (last : ℕ) :
    Monotone (percentRank (last + 1) : ℚ → ℚ) := by
  intro low high inOrder
  rw [percentRank_succ, percentRank_succ]
  gcongr

theorem percentRank_of_nonpos
    (least : percent ≤ 0) :
    percentRank (last + 1) percent = (0 : ℕ) := by
  rw [percentRank_succ, max_eq_right least, min_eq_left (by norm_num), zero_div, zero_mul,
    Nat.cast_zero]

theorem percentRank_of_hundred_le
    (most : 100 ≤ percent) :
    percentRank (last + 1) percent = last := by
  have positive : 0 ≤ percent := le_trans (by norm_num) most
  rw [percentRank_succ, max_eq_left positive, min_eq_right most, div_self (by norm_num), one_mul]

theorem percentRank_of_inside
    (nonneg : 0 ≤ percent)
    (inside : percent ≤ 100) :
    percentRank (last + 1) percent = percent / 100 * last := by
  rw [percentRank_succ, max_eq_left nonneg, min_eq_left inside]

end Ranks

/-! ## Places of the ascending list -/

section Ascending

/-- Numbers from the least to the greatest. -/
def ranked
    (values : List ℚ) :
    List ℚ :=
  values.mergeSort (· ≤ ·)

theorem sortedLE_ranked
    (values : List ℚ) :
    (ranked values).SortedLE :=
  List.sortedLE_mergeSort

theorem ranked_perm
    (values : List ℚ) :
    (ranked values).Perm values :=
  List.mergeSort_perm values _

theorem length_ranked
    (values : List ℚ) :
    (ranked values).length = values.length :=
  (ranked_perm values).length_eq

/-- In ascending order, equal collections of values are equal lists. -/
theorem ranked_eq_of_perm
    {values other : List ℚ}
    (same : values.Perm other) :
    ranked values = ranked other :=
  (((ranked_perm values).trans same).trans (ranked_perm other).symm).eq_of_sortedLE
    (sortedLE_ranked values) (sortedLE_ranked other)

/-- Exact numbers always have an order. -/
theorem ascending_eq_ranked
    (values : List ℚ) :
    ascending values = .ok (ranked values) := by
  have compares :
      Sorting.ComparesBy id (fun first second : ℚ => decide (first < second)) values :=
    fun first _ second _ => decide_eq_true_iff
  rcases exists_ascending_of_comparesBy compares with ⟨sorted, sorts, ascends⟩
  have same : sorted = ranked values :=
    ((perm_of_ascending sorts).trans (ranked_perm values).symm).eq_of_sortedLE
      ascends.sortedLE (sortedLE_ranked values)
  rw [sorts, same]

/-- The value at a place of the ascending list. -/
def placeOf
    (values : List ℚ)
    (place : ℕ) :
    ℚ :=
  (ranked values).getD place 0

/-- The value at a rank: no more values than the rank tells are smaller, and more are not greater. -/
structure StandsAtRank
    (values : List ℚ)
    (rank : ℕ)
    (value : ℚ) :
    Prop where
  listed : value ∈ values
  smaller : (values.countP fun other => other < value) ≤ rank
  notGreater : rank < values.countP fun other => other ≤ value

variable
    {values : List ℚ}
    {place : ℕ}
    (isPlace : place < values.length)

include isPlace

theorem getElem?_ranked :
    (ranked values)[place]? = some (placeOf values place) := by
  rw [← length_ranked] at isPlace
  rw [placeOf, List.getD_eq_getElem _ _ isPlace, List.getElem?_eq_getElem isPlace]

theorem standsAtRank_placeOf :
    StandsAtRank values place (placeOf values place) := by
  have perm := ranked_perm values
  have sorted := (sortedLE_ranked values).pairwise
  rcases List.getElem?_eq_some_iff.1 (getElem?_ranked isPlace) with ⟨inside, isValue⟩
  have split : ranked values =
      (ranked values).take place ++
        placeOf values place :: (ranked values).drop (place + 1) := by
    rw [← isValue, List.getElem_cons_drop, List.take_append_drop]
  have front : ((ranked values).take place).length = place :=
    List.length_take_of_le inside.le
  rw [split, List.pairwise_append, List.pairwise_cons] at sorted
  rcases sorted with ⟨-, ⟨behind, -⟩, before⟩
  constructor
  case listed => exact perm.mem_iff.1 (List.mem_of_getElem? (getElem?_ranked isPlace))
  case smaller =>
    -- Only values in front of the place can be smaller.
    have none : ((placeOf values place :: (ranked values).drop (place + 1)).countP
        fun other => other < placeOf values place) = 0 := by
      rw [List.countP_eq_zero, List.forall_mem_cons]
      refine ⟨by simp, fun other listed => ?_⟩
      simpa using behind other listed
    rw [← perm.countP_eq, split, List.countP_append, none, Nat.add_zero]
    exact List.countP_le_length.trans_eq front
  case notGreater =>
    have all : (((ranked values).take place).countP fun other =>
        other ≤ placeOf values place) = place := by
      rw [List.countP_eq_length.2, front]
      intro other listed
      simpa using before other listed _ List.mem_cons_self
    rw [← perm.countP_eq, split, List.countP_append, all, List.countP_cons_of_pos (by simp)]
    omega

end Ascending

/-- The value at the rank of a percentage. -/
def valueAtPercent
    (values : List ℚ)
    (percent : ℚ) :
    ℚ :=
  valueAt (placeOf values) (percentRank values.length percent)

section Given

variable
    {values : List ℚ}
    {last : ℕ}
    (length : values.length = last + 1)

include length

theorem monotoneOn_placeOf :
    MonotoneOn (placeOf values) (Set.Iic last) := by
  intro low lowInside high highInside inOrder
  have highLt : high < (ranked values).length := by
    rw [length_ranked, length]
    exact Nat.lt_succ_of_le highInside
  rw [placeOf, placeOf, List.getD_eq_getElem _ _ (inOrder.trans_lt highLt),
    List.getD_eq_getElem _ _ highLt]
  exact (sortedLE_ranked values).getElem_le_getElem_of_le inOrder

theorem exists_placeOf_eq
    {value : ℚ}
    (listed : value ∈ values) :
    ∃ place ≤ last, placeOf values place = value := by
  rcases List.getElem?_of_mem ((ranked_perm values).mem_iff.2 listed) with ⟨place, stands⟩
  have inside := (List.getElem?_eq_some_iff.1 stands).1
  rw [length_ranked] at inside
  rw [getElem?_ranked inside, Option.some.injEq] at stands
  rw [length] at inside
  exact ⟨place, Nat.le_of_lt_succ inside, stands⟩

theorem isLeast_placeOf :
    IsLeast {value | value ∈ values} (placeOf values 0) := by
  refine ⟨(standsAtRank_placeOf (length ▸ last.succ_pos)).listed, ?_⟩
  intro value listed
  rcases exists_placeOf_eq length listed with ⟨place, inside, rfl⟩
  exact monotoneOn_placeOf length (Nat.zero_le last) inside (Nat.zero_le place)

theorem isGreatest_placeOf :
    IsGreatest {value | value ∈ values} (placeOf values last) := by
  refine ⟨(standsAtRank_placeOf (length ▸ last.lt_succ_self)).listed, ?_⟩
  intro value listed
  rcases exists_placeOf_eq length listed with ⟨place, inside, rfl⟩
  exact monotoneOn_placeOf length inside (Nat.le_refl last) inside

theorem percentRank_length_mem
    (percent : ℚ) :
    percentRank values.length percent ∈ Set.Icc (0 : ℚ) last := by
  rw [length]
  exact percentRank_mem last percent

/-- Both places next to a rank are places of the list. -/
theorem ceil_percentRank_lt
    (percent : ℚ) :
    ⌈percentRank values.length percent⌉₊ < values.length :=
  (Nat.lt_succ_of_le (ceil_le_of_le (percentRank_length_mem length percent).2)).trans_eq length.symm

/-- A percentile is read between the places next to its rank. -/
theorem percentile?_eq
    (percent : ℚ) :
    percentile? values percent = .ok (some (valueAtPercent values percent)) := by
  have upperPlace := ceil_percentRank_lt length percent
  have lowerPlace : ⌊percentRank values.length percent⌋₊ < values.length :=
    (Nat.floor_le_ceil _).trans_lt upperPlace
  rw [percentile?, ascending_eq_ranked]
  refine congrArg Except.ok ?_
  rw [rankedValue?, length_ranked]
  change
    ((ranked values)[⌊percentRank values.length percent⌋₊]?.bind fun low =>
      (ranked values)[if ((⌊percentRank values.length percent⌋₊ : ℕ) : ℚ) <
          percentRank values.length percent then
            ⌊percentRank values.length percent⌋₊ + 1
          else ⌊percentRank values.length percent⌋₊]?.bind fun high =>
        some (low + (high - low) *
          (percentRank values.length percent - ⌊percentRank values.length percent⌋₊))) = _
  rw [floor_step_eq_ceil (percentRank_length_mem length percent).1,
    getElem?_ranked lowerPlace, getElem?_ranked upperPlace]
  rfl

/-- At a percentage with a whole rank stands the value at this place. -/
theorem valueAtPercent_eq_placeOf
    {percent : ℚ}
    {rank : ℕ}
    (whole : percentRank (last + 1) percent = rank) :
    valueAtPercent values percent = placeOf values rank := by
  rw [valueAtPercent, length, whole, valueAt_natCast]

theorem monotone_valueAtPercent :
    Monotone (valueAtPercent values) := by
  intro low high inOrder
  refine monotoneOn_valueAt (monotoneOn_placeOf length) (percentRank_length_mem length low)
    (percentRank_length_mem length high) ?_
  rw [length]
  exact percentRank_mono last inOrder

theorem placeOf_zero_le
    (percent : ℚ) :
    placeOf values 0 ≤ valueAtPercent values percent := by
  have least : valueAtPercent values (min percent 0) = placeOf values 0 :=
    valueAtPercent_eq_placeOf length (percentRank_of_nonpos (min_le_right _ _))
  rw [← least]
  exact monotone_valueAtPercent length (min_le_left _ _)

theorem le_placeOf_last
    (percent : ℚ) :
    valueAtPercent values percent ≤ placeOf values last := by
  have most : valueAtPercent values (max percent 100) = placeOf values last :=
    valueAtPercent_eq_placeOf length (percentRank_of_hundred_le (le_max_right _ _))
  rw [← most]
  exact monotone_valueAtPercent length (le_max_left _ _)

end Given

/-! ## Rows -/

/-- The percentiles of a row ascend. -/
structure StatsRow.Ascends
    (row : StatsRow ℚ) :
    Prop where
  p1_le_p10 : row.p1 ≤ row.p10
  p10_le_median : row.p10 ≤ row.median
  median_le_p99 : row.median ≤ row.p99

/-- Whatever their average is taken to be, values have a row, and its percentiles ascend. -/
theorem StatsRow.exists_withAverage?_ascends
    {values : List ℚ}
    {last : ℕ}
    (length : values.length = last + 1)
    (key : String)
    (average : ℚ) :
    ∃ row, withAverage? key average values = .ok (some row) ∧ row.Ascends := by
  have grows := monotone_valueAtPercent length
  have made :
      withAverage? key average values =
        .ok (some
          ⟨key, average, valueAtPercent values (Quantity.ofCount 50),
            valueAtPercent values (Quantity.ofCount 99), valueAtPercent values (Quantity.ofCount 1),
            valueAtPercent values (Quantity.ofCount 10), values.length⟩) := by
    simp only [withAverage?, percentile?_eq length]
    rfl
  refine ⟨_, made, ?_, ?_, ?_⟩
  · exact grows (Nat.cast_le.2 (by decide))
  · exact grows (Nat.cast_le.2 (by decide))
  · exact grows (Nat.cast_le.2 (by decide))

/-! ## The rule -/

/--
Values that are given have percentiles.  Both places next to a rank are places of
their ascending list, between which a percentile is interpolated.  It does not
depend on the order of the values.  Below 0 percent it is the least value and
above 100 percent the greatest, and where the rank is whole it is the value at
this rank.  It grows with the percentage between the least and the greatest value,
so that the percentiles of every row ascend.
-/
theorem percentiles_ascend
    {values : List ℚ}
    (given : values ≠ []) :
    (∃ sorted,
      ascending values = .ok sorted ∧ sorted.SortedLE ∧ sorted.Perm values ∧
        ∀ percent, ∃ low high,
          sorted[⌊percentRank values.length percent⌋₊]? = some low ∧
            sorted[⌈percentRank values.length percent⌉₊]? = some high ∧
              percentile? values percent =
                .ok (some (low + (high - low) *
                  (percentRank values.length percent -
                    ⌊percentRank values.length percent⌋₊)))) ∧
      (∀ percent other,
        values.Perm other → percentile? other percent = percentile? values percent) ∧
      (∃ least greatest,
        IsLeast {value | value ∈ values} least ∧
          IsGreatest {value | value ∈ values} greatest ∧
          (∀ percent ≤ 0, percentile? values percent = .ok (some least)) ∧
          (∀ percent ≥ 100, percentile? values percent = .ok (some greatest)) ∧
          ∀ low high,
            low ≤ high →
              ∃ atLow atHigh,
                percentile? values low = .ok (some atLow) ∧
                  percentile? values high = .ok (some atHigh) ∧
                    least ≤ atLow ∧ atLow ≤ atHigh ∧ atHigh ≤ greatest) ∧
      (∀ (percent : ℚ) (rank : ℕ),
        0 ≤ percent → percent ≤ 100 → percent / 100 * (values.length - 1) = rank →
          ∃ value, percentile? values percent = .ok (some value) ∧ StandsAtRank values rank value) ∧
      (∀ key average, ∃ row,
        StatsRow.withAverage? key average values = .ok (some row) ∧ row.Ascends) ∧
      ∀ key, ∃ row, StatsRow.ofValues? key values = .ok (some row) ∧ row.Ascends := by
  obtain ⟨last, length⟩ : ∃ last, values.length = last + 1 :=
    Nat.exists_eq_succ_of_ne_zero (mt List.length_eq_zero_iff.1 given)
  refine ⟨?_, ?_, ?_, ?_, ?_, ?_⟩
  · refine ⟨ranked values, ascending_eq_ranked values, sortedLE_ranked values,
      ranked_perm values, fun percent => ?_⟩
    have upper := ceil_percentRank_lt length percent
    exact ⟨_, _, getElem?_ranked ((Nat.floor_le_ceil _).trans_lt upper),
      getElem?_ranked upper, percentile?_eq length percent⟩
  · intro percent other same
    rw [percentile?, percentile?, ascending_eq_ranked, ascending_eq_ranked,
      ranked_eq_of_perm same]
  · refine ⟨_, _, isLeast_placeOf length, isGreatest_placeOf length, ?_, ?_, ?_⟩
    · intro percent nonpos
      rw [percentile?_eq length, valueAtPercent_eq_placeOf length (percentRank_of_nonpos nonpos)]
    · intro percent most
      rw [percentile?_eq length, valueAtPercent_eq_placeOf length (percentRank_of_hundred_le most)]
    · intro low high inOrder
      exact ⟨_, _, percentile?_eq length low, percentile?_eq length high,
        placeOf_zero_le length low, monotone_valueAtPercent length inOrder,
        le_placeOf_last length high⟩
  · intro percent rank nonneg inside whole
    rw [length, Nat.cast_succ, add_sub_cancel_right, ← percentRank_of_inside nonneg inside] at whole
    have isPlace : rank < values.length := by
      have inRange := (percentRank_mem last percent).2
      rw [whole, Nat.cast_le] at inRange
      exact (Nat.lt_succ_of_le inRange).trans_eq length.symm
    refine ⟨_, percentile?_eq length percent, ?_⟩
    rw [valueAtPercent_eq_placeOf length whole]
    exact standsAtRank_placeOf isPlace
  · exact StatsRow.exists_withAverage?_ascends length
  · intro key
    rw [StatsRow.ofValues?, mean?, if_neg (mt List.isEmpty_iff.1 given)]
    exact StatsRow.exists_withAverage?_ascends length key _

/-- Four values that do not ascend. -/
def fourValues :
    List ℚ :=
  [4, 1, 3, 2]

theorem fourValues_percentiles_ascend :
    percentile? fourValues (-5) = .ok (some 1) ∧
      percentile? fourValues 250 = .ok (some 4) ∧
        percentile? [2, 4, 1, 3] 10 = percentile? fourValues 10 ∧
          (∃ value,
            percentile? fourValues (100 / 3) = .ok (some value) ∧ StandsAtRank fourValues 1 value) ∧
            (∃ atLow atHigh,
              percentile? fourValues 10 = .ok (some atLow) ∧
                percentile? fourValues 50 = .ok (some atHigh) ∧
                  1 ≤ atLow ∧ atLow ≤ atHigh ∧ atHigh ≤ 4) ∧
              ∃ row, StatsRow.ofValues? "1000" fourValues = .ok (some row) ∧ row.Ascends := by
  rcases percentiles_ascend (show fourValues ≠ [] by decide) with
    ⟨-, shuffled, ⟨least, greatest, isLeast, isGreatest, below, above, between⟩, whole, -, rows⟩
  have first : IsLeast {value | value ∈ fourValues} 1 :=
    ⟨by decide, show ∀ value ∈ fourValues, 1 ≤ value by decide⟩
  have final : IsGreatest {value | value ∈ fourValues} 4 :=
    ⟨by decide, show ∀ value ∈ fourValues, value ≤ 4 by decide⟩
  cases isLeast.unique first
  cases isGreatest.unique final
  refine ⟨below (-5) (by norm_num), above 250 (by norm_num), shuffled 10 _ (by decide), ?_,
    between 10 50 (by norm_num), rows "1000"⟩
  exact whole (100 / 3) 1 (by norm_num) (by norm_num) (by norm_num [fourValues])

end NetRun
