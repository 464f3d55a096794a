import Untyped.Decimal.Digits

/-!
Decimal numbers and the two ways of writing them: positionally, and with an exponent. A style
says where each is used and how a tie between two shortest decimals goes.
-/
namespace Untyped

/-- The non-negative decimal `coefficient * 10 ^ exponent`. -/
structure Decimal where
  coefficient : Nat
  exponent : Int
deriving DecidableEq

/-- Which of two equally near neighbours is taken. -/
inductive Tie where
  | up
  | even
deriving DecidableEq

structure NumberStyle where
  tie : Tie
  /-- Whether a number whose leading digit has this power of ten is written positionally. -/
  positional : Int → Bool
  fraction : Bool

namespace Decimal

def digits (d : Decimal) : List Digit := Digit.ofNat d.coefficient

def leading (d : Decimal) : Int := d.digits.length - 1 + d.exponent

def positional (d : Decimal) : List Char :=
  let digits := Digit.chars d.digits
  if 0 ≤ d.exponent then digits ++ List.replicate d.exponent.toNat '0'
  else
    let places := d.exponent.natAbs
    let padded := List.replicate (places + 1 - digits.length) '0' ++ digits
    padded.take (padded.length - places) ++ '.' :: padded.drop (padded.length - places)

/-- The leading digit, the other digits after a point if there are any, and the signed
exponent. -/
def scientific (d : Decimal) : List Char :=
  let mantissa :=
    match Digit.chars d.digits with
    | [] => []
    | c :: [] => [c]
    | c :: cs => c :: '.' :: cs
  let sign := if d.leading < 0 then '-' else '+'
  mantissa ++ 'e' :: sign :: Digit.chars (Digit.ofNat d.leading.natAbs)

def write (style : NumberStyle) (d : Decimal) : List Char :=
  if style.positional d.leading then
    if style.fraction && decide (0 ≤ d.exponent) then d.positional ++ ['.', '0'] else d.positional
  else d.scientific

end Decimal

end Untyped
