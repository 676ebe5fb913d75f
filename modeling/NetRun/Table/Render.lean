/-!
# Writing text tables

A table is written one row per line, the fields separated by tabs and every
row closed by a line feed.
-/

namespace NetRun.Table

/-- Fields with a tab between any two. -/
def joinFields :
    List (List Char) → List Char
  | [] => []
  | [field] => field
  | field :: next :: fields => field ++ '\t' :: joinFields (next :: fields)

/-- The line of a row. -/
def renderRow
    (fields : List String) :
    List Char :=
  joinFields (fields.map String.toList) ++ ['\n']

/-- The text of a table. -/
def render
    (rows : List (List String)) :
    String :=
  String.ofList (rows.flatMap renderRow)

end NetRun.Table
