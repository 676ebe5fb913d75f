import NetRun.Decimal.Layout
import NetRun.Statistics.Percentile
import NetRun.Table.Render

/-!
# Rows of a statistics table

A row sums up the values that belong to one key: their average, four
percentiles and their number.
-/

namespace NetRun

/-- The statistics of the values under a key. -/
structure StatsRow (α : Type) where
  key : String
  average : α
  median : α
  p99 : α
  p1 : α
  p10 : α
  count : Nat
deriving DecidableEq, Repr

namespace StatsRow

section

variable {α : Type} [Add α] [Sub α] [Mul α] [Div α] [LT α] [DecidableLT α] [Quantity α]

/-- The statistics of values whose average is worked out elsewhere. -/
def withAverage?
    (key : String)
    (average : α)
    (values : List α) :
    Except Crash (Option (StatsRow α)) := do
  let median ← percentile? values (Quantity.ofCount 50)
  let p99 ← percentile? values (Quantity.ofCount 99)
  let p1 ← percentile? values (Quantity.ofCount 1)
  let p10 ← percentile? values (Quantity.ofCount 10)
  return do
    return ⟨key, average, ← median, ← p99, ← p1, ← p10, values.length⟩

/-- The statistics of values, averaged by their mean. -/
def ofValues?
    (key : String)
    (values : List α) :
    Except Crash (Option (StatsRow α)) :=
  match mean? values with
  | none => .ok none
  | some average => withAverage? key average values

end

/-- The fields of a row, in the order of the table. -/
def fields
    (row : StatsRow Float) :
    List String :=
  let write := Decimal.tabular.write
  [row.key, write row.average, write row.median, write row.p99, write row.p1,
    write row.p10, toString row.count]

end StatsRow

end NetRun
