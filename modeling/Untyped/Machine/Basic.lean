import Untyped.Machine.Recipe
import Untyped.Machine.Slots
import Untyped.Value.Connective

/-!
A machine that evaluates expressions over named slots and keeps a trace of what it evaluates.
Operands are evaluated from left to right, and the connectives leave out what does not decide.
-/
namespace Untyped

/-- The state between two evaluations. -/
structure Machine where
  slots : Slots
  /-- What was evaluated in the running step, the latest first. -/
  trace : List String
  /-- The identity of the next object. -/
  next : Nat

inductive Expr where
  | value (recipe : Recipe) (tag : Option String)
  | slot (name : String)
  | set (name : String) (x : Expr)
  | not (x : Expr)
  | truth (x : Expr)
  | and (left right : Expr)
  | or (left right : Expr)
  | select (condition yes no : Expr)
  | add (x : Expr) (d : Double)
  | display (x : Expr)
  | typeName (x : Expr)
  | text (x : Expr)
  | number (x : Expr)
  | reference (x : Expr)
  | box (path : String) (x : Expr)
  | tree (x : Expr)
  | written (x : Expr)
  | parsed (x : Expr)

/-- A computation of the machine; its effects up to a failure stay. -/
abbrev Action := ExceptT LoadError (StateM Machine)

namespace Action

def build {α : Type} (b : Build α) : Action α :=
  ExceptT.mk (modifyGet fun m =>
    let (outcome, next) := b.run.run m.next
    (outcome, { m with next }))

def note (line : String) : Action Unit :=
  modify fun m => { m with trace := line :: m.trace }

def get (name : String) : Action Value := do
  note ("get " ++ name)
  return (← getThe Machine).slots.get name

def set (name : String) (v : Value) : Action Unit := do
  note ("set " ++ name)
  modify fun m => { m with slots := m.slots.set name v }

end Action

namespace Value

/-- The number plus a double, as a single; zero if the value is no number. -/
def plus (v : Value) (d : Double) : Value :=
  match v.number? with
  | some x => single ((x.add d).convert .single)
  | none => single (.ofNat .single 0)

end Value

def Expr.eval : Expr → Action Value
  | value recipe tag => do
    tag.forM Action.note
    Action.build recipe.build
  | slot name => Action.get name
  | set name x => do
    let v ← x.eval
    Action.set name v
    return v
  | not x => return (← x.eval).not
  | truth x => return .ofBool (← x.eval).truth
  | and left right => do (← left.eval).andThen right.eval
  | or left right => do (← left.eval).orElse right.eval
  | select condition yes no => do (← condition.eval).select yes.eval no.eval
  | add x d => return (← x.eval).plus d
  | display x => return .text (← x.eval).display
  | typeName x => return .text (← x.eval).typeName
  | text x => return ((← x.eval).text?.map Value.text).getD .null
  | number x => return ((← x.eval).number?.map Value.double).getD .null
  | reference x => return ((← x.eval).reference?.map Value.ref).getD .null
  | box path x => do
    let v ← x.eval
    return .ref (.mk path (← Action.build Build.fresh) (.value v))
  | tree x => do
    let v ← x.eval
    return v.toJson.toValue (← Action.build Build.fresh)
  | written x => do Action.build (Build.load (← x.eval).toJson.compact)
  | parsed x => do Action.build (Build.load ((← x.eval).text?.getD ""))

end Untyped
