import NetRun.Sorting.Few

/-!
# Sorting by runs

A long list is cut into runs, and neighbouring runs are merged.  Long stretches
that ascend or descend already are runs of their own.  Which neighbours are
merged first depends on the lengths of the runs alone.
-/

namespace NetRun.Sorting

variable {α : Type} (less : α → α → Bool)

/-! ## Runs -/

/-- Neighbouring values, sorted already or still to be sorted. -/
structure Run (α : Type) where
  values : List α
  isSorted : Bool

/-- The values from the first one on, as long as each is related to the one before it. -/
def stretch
    (related : α → α → Bool) :
    α → List α → List α
  | _, [] => []
  | before, value :: rest =>
    if related before value then value :: stretch related value rest else []

/-- The stretch at the front that ascends, or else the one that descends without repeats. -/
def foundRun :
    List α → Bool × List α
  | first :: second :: rest =>
    if less second first then
      (true, first :: stretch (fun before value => less value before) first (second :: rest))
    else
      (false, first :: stretch (fun before value => !less value before) first (second :: rest))
  | values => (false, values)

/--
The run at the front of a list: a stretch of at least the given length, turned
round if it descends, or else some values, which are sorted at once or left for
later.
-/
def nextRun
    (atOnce : Bool)
    (least : Nat)
    (values : List α) :
    Option (Run α) :=
  let (descends, found) := foundRun less values
  if least ≤ found.length then
    some ⟨if descends then found.reverse else found, true⟩
  else if atOnce then do
    return ⟨← sortFew less (values.take fewValues), true⟩
  else
    some ⟨values.take least, false⟩

/-- The runs of a list; there are no more of them than the given number. -/
def cutRuns
    (atOnce : Bool)
    (least : Nat) :
    Nat → List α → Option (List (Run α))
  | 0, _ => some []
  | _, [] => some []
  | most + 1, values => do
    let run ← nextRun less atOnce least values
    return run :: (← cutRuns atOnce least most (values.drop run.values.length))

/-- The least length of a stretch that is worth a run: about the square root for long lists. -/
def leastStretch
    (length : Nat) :
    Nat :=
  if length ≤ 4096 then min (length - length / 2) 64
  else
    let shift := (1 + length.log2) / 2
    ((1 <<< shift) + (length >>> shift)) / 2

/-! ## Merging -/

/-- Merge two sorted lists, beginning at the front if the first is no longer and else at the end. -/
def merge
    (left right : List α) :
    List α :=
  if left.length ≤ right.length then
    left.merge right fun x y => !less y x
  else
    (right.reverse.merge left.reverse fun y x => !less y x).reverse

/-- The values of a run in order. -/
def Run.settle
    (sort : List α → Option (List α))
    (run : Run α) :
    Option (List α) :=
  if run.isSorted then some run.values else sort run.values

/-- Join two runs; as long as neither is sorted and there is room, they are left for later. -/
def joinRuns
    (sort : List α → Option (List α))
    (room : Nat)
    (left right : Run α) :
    Option (Run α) :=
  if left.values.length + right.values.length ≤ room ∧ !left.isSorted ∧ !right.isSorted then
    some ⟨left.values ++ right.values, false⟩
  else do
    return ⟨merge less (← left.settle sort) (← right.settle sort), true⟩

/-- The depth at which two neighbouring runs are merged in a balanced tree over the list. -/
def mergeDepth
    (length start middle stop : Nat) :
    Nat :=
  let scale := ((1 <<< 62) + length - 1) / length
  let node (place : Nat) : BitVec 64 := BitVec.ofNat 64 (scale * place)
  (node (start + middle) ^^^ node (middle + stop)).clz.toNat

/-- Join a run with those in front of it that are to be merged at the given depth or deeper. -/
def joinDeeper
    (sort : List α → Option (List α))
    (room depth : Nat) :
    List (Run α × Nat) → Run α → Option (List (Run α × Nat) × Run α)
  | [], run => some ([], run)
  | (front, own) :: waiting, run =>
    if depth ≤ own then do
      joinDeeper sort room depth waiting (← joinRuns less sort room front run)
    else
      some ((front, own) :: waiting, run)

/-- Join all runs, given those that wait in front of a run, the run, its start and the others. -/
def joinAll
    (sort : List α → Option (List α))
    (room length : Nat) :
    Nat → List (Run α × Nat) → Run α → List (Run α) → Option (Run α)
  | _, waiting, run, [] => do
    return (← joinDeeper less sort room 0 waiting run).2
  | start, waiting, run, next :: others => do
    let middle := start + run.values.length
    let depth := mergeDepth length start middle (middle + next.values.length)
    let (waiting, joined) ← joinDeeper less sort room depth waiting run
    joinAll sort room length middle ((joined, depth) :: waiting) next others

/-- Sort by runs, some of which may be left for the given sort. -/
def sortRuns
    (atOnce : Bool)
    (sort : List α → Option (List α))
    (room : Nat)
    (values : List α) :
    Option (List α) := do
  let length := values.length
  match ← cutRuns less atOnce (leastStretch length) length values with
  | [] => return []
  | run :: others => (← joinAll less sort room length 0 [] run others).settle sort

end NetRun.Sorting
