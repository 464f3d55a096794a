import Untyped.Binary.Basic
import Untyped.Decimal.Interval

/-!
The shortest decimal that reads back as a given binary datum, and the text of a datum.
-/
namespace Untyped

namespace Format

def places (f : Format) : Nat := f.scale + 1

def decimalUnits (f : Format) (halves : Nat) : Nat := halves * Nat.pow 5 f.places

/-- The numbers that round to a rank, in units of `10 ^ (-places)`: those between the midpoints to
its two neighbours, with the midpoints when the rank is even. -/
def interval (f : Format) (rank : Nat) : Interval where
  lower := f.decimalUnits (f.magnitude (rank - 1) + f.magnitude rank)
  center := f.decimalUnits (2 * f.magnitude rank)
  upper := f.decimalUnits (f.magnitude rank + f.magnitude (rank + 1))
  closed := rank % 2 == 0

end Format

namespace Binary.Finite

variable {f : Format}

/-- The shortest decimal that reads back as the magnitude, and of these the nearest. -/
def shortest (tie : Tie) (x : Finite f) : Decimal :=
  if x.isZero then ⟨0, 0⟩ else (f.interval x.rank).shortest tie f.places

def write (style : NumberStyle) (x : Finite f) : List Char :=
  let magnitude := (x.shortest style.tie).write style
  if x.negative then '-' :: magnitude else magnitude

end Binary.Finite

namespace Binary

variable {f : Format}

def write (style : NumberStyle) : Binary f → List Char
  | .nan => ['N', 'a', 'N']
  | .infinite false => ['i', 'n', 'f']
  | .infinite true => ['-', 'i', 'n', 'f']
  | .finite x => x.write style

end Binary

end Untyped
