import Untyped.Binary.Round
import Untyped.Decimal.Digits

/-!
Reading a positional decimal as the nearest binary datum.
-/
namespace Untyped

namespace Digit

def span : List Char → List Digit × List Char
  | [] => ([], [])
  | c :: cs =>
    match ofChar? c with
    | some d => let (ds, rest) := span cs; (d :: ds, rest)
    | none => ([], c :: cs)

end Digit

namespace Binary

/-- The datum nearest to an unsigned decimal: digits, and if there is a point more digits. -/
def readMagnitude? (f : Format) (negative : Bool) (text : List Char) : Option (Binary f) :=
  match Digit.span text with
  | ([], _) => none
  | (whole, []) => some (nearest f negative (Digit.toNat whole) 1)
  | (whole, '.' :: rest) =>
    match Digit.span rest with
    | ([], _) => none
    | (fraction, []) =>
      some (nearest f negative (Digit.toNat (whole ++ fraction)) (Nat.pow 10 fraction.length))
    | (_, _ :: _) => none
  | (_, _ :: _) => none

/-- The datum nearest to a positional decimal, or the one named `NaN`, `inf` or `-inf`. -/
def read? (f : Format) (text : List Char) : Option (Binary f) :=
  match text with
  | ['N', 'a', 'N'] => some .nan
  | ['i', 'n', 'f'] => some (.infinite false)
  | ['-', 'i', 'n', 'f'] => some (.infinite true)
  | '-' :: magnitude => readMagnitude? f true magnitude
  | magnitude => readMagnitude? f false magnitude

end Binary

end Untyped
