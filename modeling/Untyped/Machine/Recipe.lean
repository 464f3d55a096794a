import Untyped.Value.Load

/-!
Recipes for values: what is constructed, and with what inside. Every construction of a reference
takes a new identity.
-/
namespace Untyped

mutual

inductive Recipe where
  | double (x : Double)
  | single (x : Single)
  | int (n : Int32)
  | bool (b : Bool)
  | text (s : String)
  | null
  | object (path : String)
  | reference (path : String) (payload : PayloadRecipe)
  | json (text : String)
  | number (n : Json.Number)

inductive PayloadRecipe where
  | unit
  | int (n : Int32)
  | double (x : Double)
  | text (s : String)
  | bool (b : Bool)
  | absent
  | json (text : String)
  | value (recipe : Recipe)
  | reference (path : String) (payload : PayloadRecipe)

end

/-- A computation that may load text and takes identities from a counter; the counter outlives a
failure. -/
abbrev Build := ExceptT LoadError (StateM Nat)

namespace Build

def fresh : Build Nat := modifyGet fun next => (next, next + 1)

def load (text : String) : Build Value := do
  let identity ← fresh
  ExceptT.mk (pure (loadValue identity text))

end Build

mutual

def Recipe.build : Recipe → Build Value
  | .double x => pure (.double x)
  | .single x => pure (.single x)
  | .int n => pure (.int n)
  | .bool b => pure (.ofBool b)
  | .text s => pure (.text s)
  | .null => pure .null
  | .object path => return .object path (← Build.fresh)
  | .reference path payload => return .ref (← payload.build path)
  | .json text => Build.load text
  | .number n => pure n.toValue

def PayloadRecipe.build (path : String) : PayloadRecipe → Build Reference
  | .unit => wrap .unit
  | .int n => wrap (.int n)
  | .double x => wrap (.double x)
  | .text s => wrap (.text s)
  | .bool b => wrap (.bool b)
  | .absent => wrap .absent
  | .json text => do wrap (.json (← Build.load text).toJson)
  | .value recipe => do wrap (.value (← recipe.build))
  | .reference inner payload => do wrap (.reference (← payload.build inner))
where
  wrap (payload : Payload) : Build Reference := return .mk path (← Build.fresh) payload

end

end Untyped
