import Untyped.Decimal.Shortest
import Untyped.Binary.Round

/-!
Numbers of a JSON tree: integers of 64 bits, signed or unsigned, and finite doubles. An integer
and a double are never the same number here, whatever their values.
-/
namespace Untyped.Json

inductive Number where
  | integer (n : Int) (inRange : -0x8000000000000000 ≤ n ∧ n < 0x10000000000000000)
  | float (x : Binary.Finite .double)
deriving DecidableEq

namespace Number

/-- Doubles are positional from `0.00001` up to below `10 ^ 16`, always with a fraction there, and
a tie goes to the even neighbour. -/
def style : NumberStyle := ⟨.even, fun power => -5 ≤ power ∧ power ≤ 15, true⟩

def writeInt (n : Int) : List Char :=
  let digits := Digit.chars (Digit.ofNat n.natAbs)
  if n < 0 then '-' :: digits else digits

def write : Number → List Char
  | integer n _ => writeInt n
  | float x => x.write style

def toDouble : Number → Double
  | integer n _ => .ofInt .double n
  | float x => .finite x

def ofInt32 (n : Int32) : Number :=
  integer n.toInt ⟨by have := n.le_toInt; omega, by have := n.toInt_lt; omega⟩

end Number

end Untyped.Json
