import NetRun.Sorting.Many
import NetRun.Statistics.Quantity
import NetRun.Stop

/-!
# Means and percentiles

A percentile is read off the ascending list of the values.  The percentage
gives a rank between the first and the last place, and between two places the
values are interpolated linearly.
-/

namespace NetRun

variable {α : Type} [Add α] [Sub α] [Mul α] [Div α] [LT α] [DecidableLT α] [Quantity α]

/-- The arithmetic mean; no values have none. -/
def mean?
    (values : List α) :
    Option α :=
  if values.isEmpty then none
  else some (total values / Quantity.ofCount values.length)

/--
The values in ascending order.  Values that do not compare leave the order open,
and many values may then be found to have none, which crashes.
-/
def ascending
    (values : List α) :
    Except Crash (List α) :=
  match Sorting.sort (fun first second => decide (first < second)) values with
  | some sorted => .ok sorted
  | none => .error .unorderedValues

/-- A percentage, moved to the closer end if it is not between 0 and 100. -/
def clampPercent
    (percent : α) :
    α :=
  let least : α := Quantity.ofCount 0
  let most : α := Quantity.ofCount 100
  let raised := if percent < least then least else percent
  if most < raised then most else raised

/-- The place of a percentage among `count` places, the first of which is zero. -/
def percentRank
    (count : Nat)
    (percent : α) :
    α :=
  clampPercent percent / Quantity.ofCount 100 * Quantity.ofCount (count - 1)

/-- The value at the rank of a percentage among values in order; no values have none. -/
def rankedValue?
    (sorted : List α)
    (percent : α) :
    Option α := do
  let rank := percentRank sorted.length percent
  let lower := Quantity.wholePart rank
  let upper := if Quantity.ofCount lower < rank then lower + 1 else lower
  let low ← sorted[lower]?
  let high ← sorted[upper]?
  return low + (high - low) * (rank - Quantity.ofCount lower)

/-- The percentile at a percentage; no values have none. -/
def percentile?
    (values : List α)
    (percent : α) :
    Except Crash (Option α) := do
  return rankedValue? (← ascending values) percent

end NetRun
