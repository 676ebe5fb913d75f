
/-!
# Sorting few values

Values are sorted by a comparison that tells whether one is less than another.
It need not be an order.  Where it is none the values end up in some
arrangement, unless the two ends of a merge contradict each other: then the
comparison has been found to be no order, and the sort has no result.
-/

namespace NetRun.Sorting

variable {α : Type} (less : α → α → Bool)

/-! ## Insertion -/

/-- Insert a value into a list that descends, behind the values that it is less than. -/
def insertDescending
    (value : α) :
    List α → List α
  | [] => [value]
  | greatest :: rest =>
    if less value greatest then greatest :: insertDescending value rest
    else value :: greatest :: rest

/-- Add values to a sorted list one by one, each moved to the front as far as it is less. -/
def insertAll
    (sorted values : List α) :
    List α :=
  (values.foldl (fun descending value => insertDescending less value descending)
    sorted.reverse).reverse

/-! ## Four values -/

/-- Two values in order; they change places only if the second is less. -/
def sortTwo
    (first second : α) :
    α × α :=
  if less second first then (second, first) else (first, second)

/-- Four values in order: two pairs, then their ends, then what is left between them. -/
def sortFour
    (first second third fourth : α) :
    List α :=
  let (a, b) := sortTwo less first second
  let (c, d) := sortTwo less third fourth
  match less c a, less d b with
  | false, false =>
    let (lower, upper) := sortTwo less b c
    [a, lower, upper, d]
  | false, true =>
    let (lower, upper) := sortTwo less c d
    [a, lower, upper, b]
  | true, false =>
    let (lower, upper) := sortTwo less a b
    [c, lower, upper, d]
  | true, true =>
    let (lower, upper) := sortTwo less a d
    [c, lower, upper, b]

/-! ## Two halves -/

/--
Take some values from the fronts of two lists, each time from the second list
if its first value is less, and tell what is left of both.
-/
def takeLeast :
    Nat → List α → List α → List α × List α × List α
  | count + 1, x :: left, y :: right =>
    if less y x then
      let (taken, rest) := takeLeast count (x :: left) right
      (y :: taken, rest)
    else
      let (taken, rest) := takeLeast count left (y :: right)
      (x :: taken, rest)
  | _, left, right => ([], left, right)

/--
Merge two sorted halves, the second of which may have one value more, from both
ends at once.  Each end takes as many values as the first half has.  The ends
contradict each other if both have taken one value; else at most one value is
left between them.
-/
def joinHalves
    (left right : List α) :
    Option (List α) :=
  let (least, leftBehind, rightBehind) := takeLeast less left.length left right
  let (greatest, rightBefore, leftBefore) :=
    takeLeast (fun x y => less y x) left.length right.reverse left.reverse
  let leftTaken := left.length - leftBehind.length
  let rightTaken := right.length - rightBehind.length
  if leftTaken ≤ leftBefore.length ∧ rightTaken ≤ rightBefore.length then
    some (least ++ leftBehind.take (leftBefore.length - leftTaken) ++
      rightBehind.take (rightBefore.length - rightTaken) ++ greatest.reverse)
  else none

/-- Sort a half whose first four values are sorted at once. -/
def sortFromFour :
    List α → List α
  | first :: second :: third :: fourth :: rest =>
    insertAll less (sortFour less first second third fourth) rest
  | values => insertAll less [] values

/-- Sort a half whose first eight values are sorted at once. -/
def sortFromEight :
    List α → Option (List α)
  | a :: b :: c :: d :: e :: f :: g :: h :: rest => do
    let front ← joinHalves less (sortFour less a b c d) (sortFour less e f g h)
    return insertAll less front rest
  | values => some (insertAll less [] values)

/-- The number of values up to which they are sorted as two halves. -/
def fewValues :
    Nat :=
  32

/-- Sort few values: each half by itself, and then both together. -/
def sortFew
    (values : List α) :
    Option (List α) := do
  let left := values.take (values.length / 2)
  let right := values.drop (values.length / 2)
  if values.length < 2 then
    return values
  else if values.length < 8 then
    joinHalves less (insertAll less [] left) (insertAll less [] right)
  else if values.length < 16 then
    joinHalves less (sortFromFour less left) (sortFromFour less right)
  else
    joinHalves less (← sortFromEight less left) (← sortFromEight less right)

end NetRun.Sorting
