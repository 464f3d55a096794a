import Untyped.Value.Truth

/-!
The connectives. Operands are computations with effects of any kind; one that does not decide is
not run, and the answer is always what the last operand run has yielded.
-/
namespace Untyped.Value

variable {m : Type → Type} [Monad m]

/-- The conjunction: the left value if it is false, otherwise what the right operand yields. -/
def andThen (left : Value) (right : m Value) : m Value :=
  if left.truth then right else pure left

/-- The disjunction: the left value if it is true, otherwise what the right operand yields. -/
def orElse (left : Value) (right : m Value) : m Value :=
  if left.truth then pure left else right

def select (condition : Value) (yes no : m Value) : m Value :=
  if condition.truth then yes else no

end Untyped.Value
