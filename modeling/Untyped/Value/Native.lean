import Untyped.Value.Truth

/-!
Data before it is boxed: plain numbers and texts, references, values, options and borrowed views
of them. Its truth is defined on its own, and boxing flattens the options.
-/
namespace Untyped

inductive Native where
  | double (x : Double)
  | single (x : Single)
  | int (n : Int32)
  | text (s : String)
  | reference (r : Reference)
  | value (v : Value)
  | absent
  | present (n : Native)
  | borrowed (n : Native)

namespace Native

def truth : Native → Bool
  | double x => !x.isZero
  | single x => !x.isZero
  | int n => n != 0
  | text s => !s.isEmpty
  | reference _ => true
  | value v => v.truth
  | absent => false
  | present n => n.truth
  | borrowed n => n.truth

/-- The datum as a value; an absent one, however deep in options, is nothing. -/
def box : Native → Value
  | double x => .double x
  | single x => .single x
  | int n => .int n
  | text s => .text s
  | reference r => .ref r
  | value v => v
  | absent => .null
  | present n => n.box
  | borrowed n => n.box

end Native

end Untyped
