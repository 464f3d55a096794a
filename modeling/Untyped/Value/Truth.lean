import Untyped.Value.Basic

/-!
The truth of a value. A number is false when it is zero, a text when it is empty, and nothing is
always false; all else only has to exist.
-/
namespace Untyped.Value

/-- Whether a branch on the value is taken. -/
def truth : Value → Bool
  | double x => !x.isZero
  | single x => !x.isZero
  | int n => n != 0
  | text s => !s.isEmpty
  | ref _ => true
  | null => false

def not (v : Value) : Value := ofBool !v.truth

end Untyped.Value
