import NetRun.Sorting.Runs

/-!
# Sorting any number of values

Up to twenty values are sorted by insertion.  More of them are sorted by runs,
and runs that are left for later are sorted by parting them at a pivot.
-/

namespace NetRun.Sorting

variable {α : Type} (less : α → α → Bool)

/-! ## Pivots -/

/-- The middle one of three values. -/
def middleOfThree
    (a b c : α) :
    α :=
  if less a b = less a c then
    if less b c = less a b then b else c
  else a

/-- The value in the middle of three parts of a stretch, each of which is short or parted again. -/
def pivot?
    (values : List α)
    (start length : Nat) :
    Option α :=
  if length < 8 then values[start]?
  else do
    let first ← pivot? values start (length / 8)
    let second ← pivot? values (start + 4 * (length / 8)) (length / 8)
    let third ← pivot? values (start + 7 * (length / 8)) (length / 8)
    return middleOfThree less first second third
termination_by length
decreasing_by all_goals omega

/--
Sort by parting the values at a pivot, as often as there are rounds; then they
are sorted by runs.  A pivot that no value is less than, or that is not above
the pivot to the left of the values, is parted from the values above it.  No
value is less than itself, so the pivot need not be told apart from the values.
-/
def sortByPivots :
    Nat → Option α → List α → Option (List α)
  | rounds, before?, values =>
    if values.length ≤ fewValues then sortFew less values
    else
      match rounds, pivot? less values 0 values.length with
      | rounds + 1, some pivot => do
        let below := values.filter fun value => less value pivot
        if below.isEmpty || before?.any (fun before => !less before pivot) then
          let above ← sortByPivots rounds none (values.filter fun value => less pivot value)
          return values.filter (fun value => !less pivot value) ++ above
        else
          let above ← sortByPivots rounds (some pivot)
            (values.filter fun value => !less value pivot)
          return (← sortByPivots rounds before? below) ++ above
      | _, _ => sortRuns less true (sortFew less) values.length values

/-- Sort values of which nothing is known. -/
def sortUnknown
    (values : List α) :
    Option (List α) :=
  sortByPivots less (2 * values.length.log2) none values

/-! ## The sort -/

/-- The number of values up to which they are sorted by insertion. -/
def insertedValues :
    Nat :=
  20

/-- The number of values that may be left for later at once. -/
def sortRoom
    (length : Nat) :
    Nat :=
  let wanted := max (max (length - length / 2) (min length 1000000)) 48
  if wanted ≤ 512 then 512 else wanted

/-- Sort values by a comparison; values that do not compare keep their places. -/
def sort
    (values : List α) :
    Option (List α) :=
  if values.length ≤ insertedValues then some (insertAll less [] values)
  else
    sortRuns less (decide (values.length ≤ 2 * fewValues)) (sortUnknown less)
      (sortRoom values.length) values

end NetRun.Sorting
