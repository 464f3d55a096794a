import Untyped.Fault
import Untyped.Json.Reader
import Untyped.Json.Writer
import Untyped.Value.Json

/-!
Loading: a text is read as one value, or as one value for each item of an array.
-/
namespace Untyped

namespace Json

inductive Kind where
  | null
  | boolean
  | number
  | string
  | array
  | object
deriving DecidableEq

def Kind.name : Kind → String
  | null => "null"
  | boolean => "a boolean"
  | number => "a number"
  | string => "a string"
  | array => "an array"
  | object => "an object"

def kind (j : Json) : Kind :=
  match j.raw with
  | .null => .null
  | .bool _ => .boolean
  | .number _ => .number
  | .string _ => .string
  | .array _ => .array
  | .object _ => .object

end Json

inductive LoadError where
  | malformed (reason : Json.Reason) (position : Text.Position)
  /-- The text is well-formed, but a tree of another kind than an array. -/
  | notList (kind : Json.Kind)
deriving DecidableEq

namespace LoadError

def toFault : LoadError → Fault
  | malformed reason position =>
    .json (reason.message ++ " at line " ++ Digit.text position.line ++ " column " ++
      Digit.text position.column)
  | notList kind =>
    (Fault.type ("expected a JSON array of values, found " ++ kind.name)).withHelp
      "wrap the values in [ ... ]"

end LoadError

def loadJson (text : String) : Except LoadError Json :=
  match Json.read text with
  | .ok j => .ok j
  | .error e => .error (.malformed e.reason (e.position text.toList))

/-- The value that a text stands for, of the given identity if it is a reference. -/
def loadValue (identity : Nat) (text : String) : Except LoadError Value :=
  match loadJson text with
  | .ok j => .ok (j.toValue identity)
  | .error e => .error e

/-- The values of the items of an array; their identities are numbered from the given one on. -/
def loadValues (identity : Nat) (text : String) : Except LoadError (List Value) :=
  match loadJson text with
  | .ok j =>
    match j.items? with
    | some items => .ok (items.mapIdx fun i item => item.toValue (identity + i))
    | none => .error (.notList j.kind)
  | .error e => .error e

end Untyped
