import Untyped.Decimal.Basic

/-!
The choice of a short decimal between two bounds. The coarsest power-of-ten grid with a point
between the bounds gives the fewest digits, and the point of it nearest to the center is taken.
-/
namespace Untyped

/-- A number, and the bounds between which another may stand for it. -/
structure Interval where
  lower : Nat
  center : Nat
  upper : Nat
  closed : Bool
deriving DecidableEq

namespace Interval

def contains (i : Interval) (point : Nat) : Bool :=
  if i.closed then i.lower ≤ point ∧ point ≤ i.upper else i.lower < point ∧ point < i.upper

/-- The multiple of `10 ^ n` that may stand for the center, the nearer one if the neighbours on
both sides may; the answer is the multiple's factor. -/
def gridPoint? (i : Interval) (tie : Tie) (n : Nat) : Option Nat :=
  let step := Nat.pow 10 n
  let below := i.center / step
  let rest := i.center % step
  let above := below + 1
  match i.contains (below * step), i.contains (above * step) with
  | true, true =>
    if 2 * rest < step then some below
    else if step < 2 * rest then some above
    else match tie with
      | .up => some above
      | .even => some (below + below % 2)
  | true, false => some below
  | false, true => some above
  | false, false => none

/-- The factor and the power of ten of the first grid point that may stand for the center, from
`10 ^ n` down; on the finest grid that is the center. -/
def search (i : Interval) (tie : Tie) : Nat → Nat × Nat
  | 0 => (i.center, 0)
  | n + 1 =>
    match i.gridPoint? tie (n + 1) with
    | some point => (point, n + 1)
    | none => i.search tie n

/-- A power of ten beyond the upper bound: `10 ^ 4` is more than `2 ^ 13`. -/
def coarsest (i : Interval) : Nat := 4 * (i.upper.log2 / 13 + 1)

/-- The short decimal that stands for the center, in units of `10 ^ (-places)`. -/
def shortest (i : Interval) (tie : Tie) (places : Nat) : Decimal :=
  let (point, n) := i.search tie i.coarsest
  ⟨point, (n : Int) - places⟩

end Interval

end Untyped
