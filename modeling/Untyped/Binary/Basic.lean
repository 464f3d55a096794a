/-!
Binary floating-point data of any width. A finite datum is a sign and a rank: its exponent and
fraction fields read as one natural number, so that ranks are ordered as magnitudes are.
-/
namespace Untyped

/-- The field widths of a binary interchange format. -/
structure Format where
  fractionBits : Nat
  exponentBits : Nat
deriving DecidableEq

namespace Format

def double : Format := ⟨52, 11⟩

def single : Format := ⟨23, 8⟩

def fractions (f : Format) : Nat := Nat.pow 2 f.fractionBits

/-- The number of finite magnitudes; it is also the rank that stands for infinity. -/
def count (f : Format) : Nat := (Nat.pow 2 f.exponentBits - 1) * f.fractions

/-- Every magnitude is a multiple of the unit `2 ^ (-scale)`. -/
def scale (f : Format) : Nat := Nat.pow 2 (f.exponentBits - 1) - 2 + f.fractionBits

end Format

/-- A finite datum of the format: the sign and the rank of its magnitude. -/
structure Binary.Finite (f : Format) where
  negative : Bool
  rank : Nat
  rank_lt : rank < f.count
deriving DecidableEq

/-- A datum of the format. There is one NaN, without a sign and without a payload, so what is said
about the bits of a datum says nothing about those of a NaN. -/
inductive Binary (f : Format) where
  | nan
  | infinite (negative : Bool)
  | finite (x : Binary.Finite f)
deriving DecidableEq

abbrev Double := Binary .double

abbrev Single := Binary .single

namespace Format

/-- The power of two by which the fraction of a rank is shifted; ranks below two whole exponent
fields share the least one. -/
def shift (f : Format) (rank : Nat) : Nat := rank / f.fractions - 1

def magnitude (f : Format) (rank : Nat) : Nat :=
  (rank - f.shift rank * f.fractions) * Nat.pow 2 (f.shift rank)

end Format

namespace Binary.Finite

variable {f : Format}

def magnitude (x : Finite f) : Nat := f.magnitude x.rank

/-- The signed value in units of `2 ^ (-scale)`; it forgets the sign of zero. -/
def units (x : Finite f) : Int := if x.negative then -x.magnitude else x.magnitude

def neg (x : Finite f) : Finite f := ⟨!x.negative, x.rank, x.rank_lt⟩

def isZero (x : Finite f) : Bool := x.rank == 0

end Binary.Finite

namespace Binary

variable {f : Format}

/-- The datum of a sign and a rank, infinite from `count` on. -/
def ofRank (f : Format) (negative : Bool) (rank : Nat) : Binary f :=
  if h : rank < f.count then .finite ⟨negative, rank, h⟩ else .infinite negative

/-- Zero is the only datum that equals zero, whichever its sign; NaN does not. -/
def isZero : Binary f → Bool
  | .finite x => x.isZero
  | _ => false

def neg : Binary f → Binary f
  | .nan => .nan
  | .infinite negative => .infinite !negative
  | .finite x => .finite x.neg

def finite? : Binary f → Option (Finite f)
  | .finite x => some x
  | _ => none

/-- The datum of a bit pattern: sign, exponent and fraction from the high bits down. -/
def ofBits (f : Format) (bits : Nat) : Binary f :=
  let width := f.fractionBits + f.exponentBits
  let negative := bits.testBit width
  let rank := bits % Nat.pow 2 width
  if rank ≤ f.count then ofRank f negative rank else .nan

/-- The bit pattern of a datum that is not NaN. -/
def bits? : Binary f → Option Nat
  | .nan => none
  | .infinite negative => some (sign negative + f.count)
  | .finite x => some (sign x.negative + x.rank)
where
  sign (negative : Bool) : Nat :=
    if negative then Nat.pow 2 (f.fractionBits + f.exponentBits) else 0

end Binary

end Untyped
