/-! Shares of a whole.

A share is kept as the two counts it is made of, so nothing is rounded before it is
shown; as a percentage it is rounded twice, once for the product with a hundred and
once for the quotient. -/
namespace HostInventory

structure Ratio where
  part : Nat
  whole : Nat
deriving DecidableEq, Repr

/-- The nearest double of a count below `2 ^ 64`. -/
def countToFloat (n : Nat) : Float :=
  n.toUInt64.toFloat

namespace Ratio

/-- The share of the whole in percent, in the numbers that `count` takes counts to. -/
def percentOf {α : Type} [Mul α] [Div α] (count : Nat → α) (hundred : α) (r : Ratio) : α :=
  count r.part * hundred / count r.whole

def percent (r : Ratio) : Float :=
  r.percentOf countToFloat 100.0

end Ratio

end HostInventory
