import Untyped.Machine.Basic

/-!
Programs of the slot machine: steps run one after another. A step that fails is reported with its
fault, and the program goes on from the state that it left.
-/
namespace Untyped

inductive Step where
  | eval (x : Expr)
  /-- Tests the condition before each round, up to the limit of rounds. -/
  | whileLoop (condition : Expr) (body : List Expr) (limit : Nat)
  /-- Tests the condition after each round; there is at least one. -/
  | doWhileLoop (condition : Expr) (body : List Expr) (limit : Nat)
  | unset (name : String)
  | same (a b : String)
  | payload (name : String)
  | load (text stem : String)

inductive Answer where
  | value (v : Value)
  | rounds (n : Nat)
  | removed (wasSet : Bool)
  | same (answer : Option Bool)
  | payload (content : Option Payload)
  | loaded (count : Nat)

namespace Action

def runAll : List Expr → Action Unit
  | [] => pure ()
  | x :: xs => do
    let _ ← x.eval
    runAll xs

/-- Rounds of the body while the condition holds, up to the limit; `done` rounds came before. -/
def rounds (condition : Expr) (body : List Expr) (done : Nat) : Nat → Action Nat
  | 0 => pure done
  | limit + 1 => do
    if (← condition.eval).truth then
      runAll body
      rounds condition body (done + 1) limit
    else pure done

def loadItems (text : String) : Action (List Value) :=
  ExceptT.mk (modifyGet fun m =>
    let outcome := loadValues m.next text
    match outcome with
    | .ok vs => (outcome, { m with next := m.next + vs.length })
    | .error _ => (outcome, m))

/-- The slots with the values set one after another, under the stem and the number of each. -/
def numbered (stem : String) (vs : List Value) (slots : Slots) : Slots :=
  (vs.zipIdx).foldl (fun slots entry => slots.set (stem ++ Digit.text entry.2) entry.1) slots

end Action

def Step.run : Step → Action Answer
  | .eval x => return .value (← x.eval)
  | .whileLoop condition body limit => return .rounds (← Action.rounds condition body 0 limit)
  | .doWhileLoop condition body limit => do
    Action.runAll body
    return .rounds (← Action.rounds condition body 1 (limit - 1))
  | .unset name => do
    let slots := (← getThe Machine).slots
    modify fun m => { m with slots := m.slots.erase name }
    return .removed (slots.get? name).isSome
  | .same a b => return .same ((← getThe Machine).slots.same? a b)
  | .payload name =>
    return .payload (((← getThe Machine).slots.get name).reference?.map Reference.payload)
  | .load text stem => do
    let vs ← Action.loadItems text
    modify fun m => { m with slots := Action.numbered stem vs m.slots }
    return .loaded vs.length

structure Report where
  outcome : Except LoadError Answer
  trace : List String
  slots : Slots

namespace Machine

def start : Machine := ⟨.empty, [], 0⟩

/-- Runs a step with a new trace. -/
def step (m : Machine) (s : Step) : Report × Machine :=
  let (outcome, after) := s.run.run.run { m with trace := [] }
  (⟨outcome, after.trace.reverse, after.slots⟩, after)

def run (m : Machine) : List Step → List Report
  | [] => []
  | s :: steps =>
    let (report, after) := m.step s
    report :: after.run steps

end Machine

end Untyped
