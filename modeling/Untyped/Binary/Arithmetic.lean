import Untyped.Binary.Round

/-!
Sum, product, quotient and change of format. Each result is the exact one rounded once.
-/
namespace Untyped

namespace Binary.Finite

variable {f : Format}

/-- The sum; an exact zero is negative only when both terms are. -/
def add (x y : Finite f) : Binary f :=
  let sum := x.units + y.units
  let negative := if sum = 0 then x.negative && y.negative else decide (sum < 0)
  .nearest f negative sum.natAbs (Nat.pow 2 f.scale)

def mul (x y : Finite f) : Binary f :=
  .nearest f (x.negative != y.negative) (x.magnitude * y.magnitude)
    (Nat.pow 2 (2 * f.scale))

def div (x y : Finite f) : Binary f :=
  let negative := x.negative != y.negative
  if y.isZero then
    if x.isZero then .nan else .infinite negative
  else .nearest f negative x.magnitude y.magnitude

def convert (g : Format) (x : Finite f) : Binary g :=
  .nearest g x.negative x.magnitude (Nat.pow 2 f.scale)

end Binary.Finite

namespace Binary

variable {f : Format}

def add : Binary f → Binary f → Binary f
  | .nan, _ => .nan
  | _, .nan => .nan
  | .infinite s, .infinite t => if s = t then .infinite s else .nan
  | .infinite s, .finite _ => .infinite s
  | .finite _, .infinite t => .infinite t
  | .finite x, .finite y => x.add y

def mul : Binary f → Binary f → Binary f
  | .nan, _ => .nan
  | _, .nan => .nan
  | .infinite s, .infinite t => .infinite (s != t)
  | .infinite s, .finite y => if y.isZero then .nan else .infinite (s != y.negative)
  | .finite x, .infinite t => if x.isZero then .nan else .infinite (x.negative != t)
  | .finite x, .finite y => x.mul y

def div : Binary f → Binary f → Binary f
  | .nan, _ => .nan
  | _, .nan => .nan
  | .infinite _, .infinite _ => .nan
  | .infinite s, .finite y => .infinite (s != y.negative)
  | .finite x, .infinite t => ofRank f (x.negative != t) 0
  | .finite x, .finite y => x.div y

def convert (g : Format) : Binary f → Binary g
  | .nan => .nan
  | .infinite negative => .infinite negative
  | .finite x => x.convert g

end Binary

end Untyped
