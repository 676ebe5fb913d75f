import NetRun.Decimal.Layout
import NetRun.Table.Render
import NetRun.Table.Row

/-!
# Reduction of averages

Two statistics tables are paired by key.  The reduction of a key is how much
lower the average of the alternative run is, in percent of the regular one.
-/

namespace NetRun

open NetRun.Table

/-- The first two columns of a statistics table. -/
structure AverageRow where
  key : String
  average : Float
deriving DecidableEq, Repr

namespace AverageRow

/-- What a text that is no file is called in messages. -/
def unnamed :
    String :=
  "<stats>"

/-- The key and the average of a row; further columns are ignored. -/
def read
    (row : Row) :
    Except ReadError AverageRow := do
  let key ← row.text 0 "key"
  let average ← row.real 1 "average"
  return ⟨key, average⟩

/-- The keys and averages of a table. -/
def parse
    (origin text : String) :
    Except ReadError (List AverageRow) :=
  ((rows origin text).filter fun row => !row.isBlank).mapM read

end AverageRow

/-- Why two tables cannot be paired. -/
inductive ReductionError where
  | missingKey (key : String)
  | zeroBaseline (key : String)
deriving DecidableEq, Repr

/-- What a refusal says. -/
def ReductionError.message :
    ReductionError → String
  | .missingKey key => s!"key '{key}' is missing from the alternative statistics"
  | .zeroBaseline key => s!"regular average for key '{key}' is zero"

/-- The averages of a key in both tables and the reduction in percent. -/
structure Reduction where
  key : String
  regular : Float
  alternative : Float
  percent : Float
deriving DecidableEq, Repr

namespace Reduction

/-- The average under a key; of several rows with the key the last one counts. -/
def lastAverage?
    (rows : List AverageRow)
    (key : String) :
    Option Float :=
  (rows.reverse.find? fun row => row.key == key).map AverageRow.average

/-- The reduction for a row of the regular table. -/
def ofRow
    (alternative : List AverageRow)
    (row : AverageRow) :
    Except ReductionError Reduction :=
  match lastAverage? alternative row.key with
  | none => .error (.missingKey row.key)
  | some average =>
    if row.average == 0.0 then .error (.zeroBaseline row.key)
    else
      .ok ⟨row.key, row.average, average, (row.average - average) * 100.0 / row.average⟩

/-- The reductions for the rows of the regular table, in their order. -/
def ofTables
    (regular alternative : List AverageRow) :
    Except ReductionError (List Reduction) :=
  regular.mapM (ofRow alternative)

/-- The table of a list of reductions. -/
def render
    (reductions : List Reduction) :
    String :=
  Table.render <|
    reductions.map fun reduction =>
      [reduction.key, Decimal.tabular.write reduction.percent]

end Reduction

end NetRun
