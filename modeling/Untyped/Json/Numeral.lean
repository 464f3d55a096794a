import Untyped.Binary.Arithmetic
import Untyped.Json.Number

/-!
Number literals and the numbers they stand for. A literal without point and exponent is kept as an
integer of 64 bits where it is one. Any other is a double computed in three roundings: the leading
digits that fit 64 bits, a power of ten, and their product or quotient.
-/
namespace Untyped.Json

structure Numeral where
  negative : Bool
  whole : List Digit
  fraction : List Digit
  /-- Whether the exponent is negative, and its digits. -/
  exponent : Option (Bool × List Digit)
deriving DecidableEq

def Number.ofInt? (n : Int) : Option Number :=
  if h : -0x8000000000000000 ≤ n ∧ n < 0x10000000000000000 then some (.integer n h) else none

def Number.signedZero (negative : Bool) : Number := .float ⟨negative, 0, by decide⟩

namespace Numeral

/-- The digits taken into a significand of 64 bits, from the first up to the one that no longer
fits; the answer is the significand and the digits not taken. -/
def gather (significand : Nat) : List Digit → Nat × List Digit
  | [] => (significand, [])
  | d :: ds =>
    let next := significand * 10 + d.val
    if next < 0x10000000000000000 then gather next ds else (significand, d :: ds)

def wholePart (n : Numeral) : Nat × List Digit := gather 0 n.whole

/-- The significand of all the digits, and the fraction digits not taken. A fraction digit may
still fit where a digit before the point did not. -/
def mantissa (n : Numeral) : Nat × List Digit := gather n.wholePart.1 n.fraction

def significand (n : Numeral) : Nat := n.mantissa.1

/-- The power of ten of the significand before the written exponent is applied. -/
def position (n : Numeral) : Int :=
  (n.wholePart.2.length : Int) - (n.fraction.length - n.mantissa.2.length : Nat)

/-- The number of the exponent's digits if 31 bits hold it; otherwise how many digits follow the
one that made it too large. -/
def readPower (power : Nat) : List Digit → Except Nat Nat
  | [] => .ok power
  | d :: ds =>
    let next := power * 10 + d.val
    if next < 0x80000000 then readPower next ds else .error ds.length

def powerOfTen (k : Nat) : Double := .ofNat .double (Nat.pow 10 k)

def shrink : Nat → Double → Double
  | 0, x => x
  | n + 1, x => if x.isZero then x else shrink n (x.div (powerOfTen 308))

/-- The double times a power of ten, rounded at each of its steps; none where it is out of
range. -/
def scaled (x : Double) (power : Int) : Option (Binary.Finite .double) :=
  if 0 ≤ power then
    if power ≤ 308 then (x.mul (powerOfTen power.toNat)).finite?
    else if x.isZero then x.finite?
    else none
  else
    let steps := (power.natAbs - 1) / 308
    ((shrink steps x).div (powerOfTen (power.natAbs - 308 * steps))).finite?

def toFloat (n : Numeral) (power : Int) : Except Nat Number :=
  match scaled (.ofNat .double n.significand) power with
  | some x => .ok (.float (if n.negative then x.neg else x))
  | none => .error 0

/-- The integer that the literal is kept as: it has neither point nor exponent, 64 bits hold it,
and it is not a negative zero. -/
def toInteger? (n : Numeral) : Option Number :=
  let (whole, dropped) := n.wholePart
  if n.fraction ≠ [] ∨ n.exponent ≠ none ∨ dropped ≠ [] then none
  else if n.negative then
    if whole = 0 then none else Number.ofInt? (-whole)
  else Number.ofInt? whole

/-- The double that the literal stands for where it is not kept as an integer. A literal out of
range has none; the answer then is how many of its last digits were not needed to tell. -/
def toRounded (n : Numeral) : Except Nat Number :=
  match n.exponent with
  | none => n.toFloat n.position
  | some (down, digits) =>
    match readPower 0 digits with
    | .ok power => n.toFloat (if down then n.position - power else n.position + power)
    | .error unread =>
      if n.significand = 0 ∨ down then .ok (.signedZero n.negative) else .error unread

def toNumber (n : Numeral) : Except Nat Number :=
  match n.toInteger? with
  | some k => .ok k
  | none => n.toRounded

end Numeral

end Untyped.Json
