/-!
# Quantities

Statistics are computed on any kind of number that has arithmetic, an order
and the few operations gathered here.  The program measures in doubles; the
laws of the formulas themselves are those of exact numbers.
-/

namespace NetRun

/-- What statistics need of a kind of number besides arithmetic and order. -/
class Quantity (α : Type) where
  /-- A count as a quantity. -/
  ofCount : Nat → α
  /-- The largest whole number that does not exceed a quantity, zero at least. -/
  wholePart : α → Nat
  /-- The sum of no quantities. -/
  emptySum : α

/-- Doubles are summed up from negative zero, which changes no summand. -/
instance : Quantity Float where
  ofCount := Float.ofNat
  wholePart value := value.toUInt64.toNat
  emptySum := -0.0

/-- The sum of a list of quantities, from the first to the last. -/
def total
    {α : Type}
    [Add α] [Quantity α]
    (values : List α) :
    α :=
  values.foldl (· + ·) Quantity.emptySum

end NetRun
