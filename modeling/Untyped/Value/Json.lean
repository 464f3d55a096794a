import Untyped.Decimal.Reader
import Untyped.Value.Show

/-!
Values and JSON trees. Scalars of a tree become values of their own; an array or an object becomes
a reference that holds it.
-/
namespace Untyped

def listPath : String := "/list"

def datumPath : String := "/datum"

namespace Json

/-- A double as a tree; what JSON cannot write becomes null. -/
def ofDouble (x : Double) : Json :=
  match x with
  | .finite x => .number (.float x)
  | _ => .null

namespace Number

/-- A number as a value: an integer of 32 bits, or the nearest double. -/
def toValue (n : Number) : Value :=
  match n with
  | integer k _ =>
    if -0x80000000 ≤ k ∧ k < 0x80000000 then .int (Int32.ofInt k) else .double n.toDouble
  | float x => .double (.finite x)

end Number

/-- The tree as a value. The identity is that of the reference, where the value is one. -/
def toValue (identity : Nat) (j : Json) : Value :=
  match j.raw with
  | .null => .null
  | .bool b => .ofBool b
  | .number n => n.toValue
  | .string s => .text s
  | .array _ => .ref (.mk listPath identity (.json j))
  | .object _ => .ref (.mk datumPath identity (.json j))

end Json

namespace Binary

/-- The double that a single's own text reads as, so that the text stays short. -/
def widenByText (x : Single) : Double :=
  (read? .double (x.write Value.style)).getD (x.convert .double)

end Binary

namespace Value

/-- The value as a tree. A reference gives back the tree it holds; any other is written as its type
path. -/
def toJson : Value → Json
  | double x => .ofDouble x
  | single x => .ofDouble x.widenByText
  | int n => .number (.ofInt32 n)
  | text s => .string s
  | ref r => r.json?.getD (.ofMembers [("$ref", .string r.typePath)])
  | null => .null

end Value

end Untyped
