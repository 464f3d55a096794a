import Untyped.Binary.Arithmetic
import Untyped.Json.Basic

/-!
Values of untyped slots: boxed numbers, text, references to labelled objects, and nothing. What a
reference holds is opaque to all that only asks whether it exists.
-/
namespace Untyped

mutual

/-- What a slot may hold. -/
inductive Value where
  | double (x : Double)
  | single (x : Single)
  | int (n : Int32)
  | text (s : String)
  | ref (r : Reference)
  | null

/-- A handle to an object. The identity tells apart objects that hold the same. -/
inductive Reference where
  | mk (typePath : String) (identity : Nat) (payload : Payload)

inductive Payload where
  | unit
  | int (n : Int32)
  | double (x : Double)
  | text (s : String)
  | bool (b : Bool)
  | absent
  | json (j : Json)
  | value (v : Value)
  | reference (r : Reference)

end

namespace Reference

def typePath : Reference → String
  | mk path _ _ => path

def identity : Reference → Nat
  | mk _ identity _ => identity

def payload : Reference → Payload
  | mk _ _ payload => payload

def same (a b : Reference) : Bool := a.identity == b.identity

def json? (r : Reference) : Option Json :=
  match r.payload with
  | .json j => some j
  | _ => none

end Reference

namespace Value

/-- The canonical number of a truth value: a single `1` or `0`. -/
def ofBool (b : Bool) : Value := single (.ofNat .single (if b then 1 else 0))

def object (path : String) (identity : Nat) : Value := ref (.mk path identity .unit)

def typeName : Value → String
  | double _ => "double"
  | single _ => "float"
  | int _ => "int"
  | text _ => "text"
  | ref _ => "ref"
  | null => "null"

def isNull : Value → Bool
  | null => true
  | _ => false

def number? : Value → Option Double
  | double x => some x
  | single x => some (x.convert .double)
  | int n => some (.ofInt .double n.toInt)
  | _ => none

def text? : Value → Option String
  | text s => some s
  | _ => none

def reference? : Value → Option Reference
  | ref r => some r
  | _ => none

end Value

end Untyped
