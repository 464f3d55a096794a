import Untyped.Binary.Basic

/-!
Rounding to the nearest datum, a half going to the even rank. Everything is exact natural
arithmetic: a quotient of two naturals is brought to the spacing of its binade and rounded once.
-/
namespace Untyped

/-- The natural nearest to `n / d`, a half going to the even one. -/
def roundHalfEven (n d : Nat) : Nat :=
  let q := n / d
  let r := n % d
  if 2 * r < d then q
  else if d < 2 * r then q + 1
  else q + q % 2

namespace Format

/-- The rank nearest to `num / den`; `count` or more stands for infinity. -/
def nearestRank (f : Format) (num den : Nat) : Nat :=
  let units := num * Nat.pow 2 f.scale
  let shift := (units / den).log2 - f.fractionBits
  shift * f.fractions + roundHalfEven units (den * Nat.pow 2 shift)

end Format

namespace Binary

def nearest (f : Format) (negative : Bool) (num den : Nat) : Binary f :=
  ofRank f negative (f.nearestRank num den)

def ofNat (f : Format) (n : Nat) : Binary f := nearest f false n 1

def ofInt (f : Format) (i : Int) : Binary f := nearest f (i < 0) i.natAbs 1

end Binary

end Untyped
