import Mathlib
import Untyped.Machine.Program

/-! The machine with a record of its constructions. Beside each slot stands the construction that
its value descends from by copying alone; without the record it is the machine as it runs. -/
namespace Untyped

/-- A value, and the number of the construction that it descends from by copying alone. -/
structure Descendant where
  value : Value
  origin : Option Nat

structure History where
  machine : Machine
  made : List Value
  /-- The construction that the value of a slot descends from by copying alone. -/
  origin : String → Option Nat

abbrev Tracked := ExceptT LoadError (StateM History)

namespace Tracked

def lift {α : Type} (a : Action α) : Tracked α :=
  ExceptT.mk (modifyGet fun h =>
    let (outcome, machine) := a.run.run h.machine
    (outcome, { h with machine }))

def construct (a : Action Value) : Tracked Descendant := do
  let v ← lift a
  modifyGet fun h => (⟨v, some h.made.length⟩, { h with made := h.made ++ [v] })

def get (name : String) : Tracked Descendant := do
  let v ← lift (Action.get name)
  modifyGet fun h => (⟨v, h.origin name⟩, h)

def set (name : String) (d : Descendant) : Tracked Unit := do
  lift (Action.set name d.value)
  modify fun h => { h with origin := Function.update h.origin name d.origin }

/-- A value that is computed is neither constructed nor a copy. -/
def computed (f : Value → Value) (t : Tracked Descendant) : Tracked Descendant := do
  return ⟨f (← t).value, none⟩

end Tracked

open Tracked (lift construct computed)

/-- Evaluation with the record. Slots, the connectives and the reference of a value hand on copies;
recipes, boxes and all that is made from a tree are constructions. -/
def Expr.track : Expr → Tracked Descendant
  | value recipe tag => do
    lift (tag.forM Action.note)
    construct (Action.build recipe.build)
  | slot name => Tracked.get name
  | set name x => do
    let d ← x.track
    Tracked.set name d
    return d
  | not x => computed Value.not x.track
  | truth x => computed (fun v => .ofBool v.truth) x.track
  | and left right => do
    let d ← left.track
    if d.value.truth then right.track else return d
  | or left right => do
    let d ← left.track
    if d.value.truth then return d else right.track
  | select condition yes no => do
    let d ← condition.track
    if d.value.truth then yes.track else no.track
  | add x y => computed (fun v => v.plus y) x.track
  | display x => computed (fun v => .text v.display) x.track
  | typeName x => computed (fun v => .text v.typeName) x.track
  | text x => computed (fun v => (v.text?.map Value.text).getD .null) x.track
  | number x => computed (fun v => (v.number?.map Value.double).getD .null) x.track
  | reference x => do
    let d ← x.track
    return if d.value.reference?.isSome then d else ⟨.null, none⟩
  | box path x => do
    let d ← x.track
    construct do return .ref (.mk path (← Action.build Build.fresh) (.value d.value))
  | tree x => do
    let d ← x.track
    construct do return d.value.toJson.toValue (← Action.build Build.fresh)
  | written x => do
    let d ← x.track
    construct (Action.build (Build.load d.value.toJson.compact))
  | parsed x => do
    let d ← x.track
    construct (Action.build (Build.load (d.value.text?.getD "")))

namespace Tracked

def runAll : List Expr → Tracked Unit
  | [] => pure ()
  | x :: xs => do
    let _ ← x.track
    runAll xs

def rounds (condition : Expr) (body : List Expr) (done : Nat) : Nat → Tracked Nat
  | 0 => pure done
  | limit + 1 => do
    let d ← condition.track
    if d.value.truth then
      runAll body
      rounds condition body (done + 1) limit
    else pure done

def loadItems (text : String) : Tracked (Nat × List Value) := do
  let vs ← lift (Action.loadItems text)
  modifyGet fun h => ((h.made.length, vs), { h with made := h.made ++ vs })

def numbered (stem : String) (first : Nat) (vs : List Value) (origin : String → Option Nat) :
    String → Option Nat :=
  vs.zipIdx.foldl (fun origin entry =>
    Function.update origin (stem ++ Digit.text entry.2) (some (first + entry.2))) origin

end Tracked

def Step.track : Step → Tracked Answer
  | .eval x => return .value (← x.track).value
  | .whileLoop condition body limit => return .rounds (← Tracked.rounds condition body 0 limit)
  | .doWhileLoop condition body limit => do
    Tracked.runAll body
    return .rounds (← Tracked.rounds condition body 1 (limit - 1))
  | .unset name => do
    let answer ← lift (Step.unset name).run
    modifyGet fun h => (answer, { h with origin := Function.update h.origin name none })
  | .same a b => lift (Step.same a b).run
  | .payload name => lift (Step.payload name).run
  | .load text stem => do
    let (first, vs) ← Tracked.loadItems text
    lift (modify fun m => { m with slots := Action.numbered stem vs m.slots })
    modifyGet fun h =>
      (.loaded vs.length, { h with origin := Tracked.numbered stem first vs h.origin })

namespace History

def start : History := ⟨.start, [], fun _ => none⟩

def step (h : History) (s : Step) : History :=
  (s.track.run.run { h with machine := { h.machine with trace := [] } }).2

def after (h : History) (steps : List Step) : History := steps.foldl step h

end History

/-! ### Without the record -/

/-- What a sequence does: the rest runs on the first part's value in the state that it left, and a
failure ends it there. -/
theorem run_bind {ε σ α β : Type} (x : ExceptT ε (StateM σ) α) (k : α → ExceptT ε (StateM σ) β)
    (s : σ) :
    (x >>= k).run.run s =
      match x.run.run s with
      | (.ok v, after) => (k v).run.run after
      | (.error e, after) => (.error e, after) := by
  show (match x.run.run s with
    | (outcome, after) => (ExceptT.bindCont k outcome).run after) = _
  cases x.run.run s with
  | mk outcome after => cases outcome <;> rfl

/-- The computation does what the action does, apart from the record. -/
def Follows {α β : Type} (f : α → β) (t : Tracked α) (a : Action β) : Prop :=
  ∀ h, a.run.run h.machine = ((t.run.run h).1.map f, (t.run.run h).2.machine)

namespace Follows

variable {α β γ δ : Type} {f : α → β} {g : γ → δ}

theorem pure {x : α} {y : β} (h : f x = y) : Follows f (pure x) (pure y) :=
  fun _ => by rw [← h]; rfl

theorem lift (a : Action α) : Follows id (Tracked.lift a) a := by
  intro h
  show a.run.run h.machine = ((a.run.run h.machine).1.map id, (a.run.run h.machine).2)
  cases a.run.run h.machine with
  | mk outcome machine => cases outcome <;> rfl

theorem record {change : History → α × History} {y : β}
    (h : ∀ h, f (change h).1 = y ∧ (change h).2.machine = h.machine) :
    Follows f (modifyGet change) (Pure.pure y) := by
  intro before
  obtain ⟨value, machine⟩ := h before
  show (Except.ok y, before.machine) = (.ok (f (change before).1), (change before).2.machine)
  rw [value, machine]

theorem bind {t : Tracked α} {a : Action β} {k : α → Tracked γ} {l : β → Action δ}
    (first : Follows f t a) (later : ∀ x, Follows g (k x) (l (f x))) :
    Follows g (t >>= k) (a >>= l) := by
  intro h
  rw [run_bind, run_bind, first h]
  cases t.run.run h with
  | mk outcome after =>
    cases outcome with
    | ok x => exact later x after
    | error e => rfl

theorem ite {c : Prop} [Decidable c] {t u : Tracked α} {a b : Action β} (yes : Follows f t a)
    (no : Follows f u b) : Follows f (if c then t else u) (if c then a else b) := by
  split
  · exact yes
  · exact no

theorem bind_record {t : Tracked α} {a : Action β} {k : α → Tracked γ} {g : γ → β}
    (first : Follows f t a) (later : ∀ x, Follows g (k x) (Pure.pure (f x))) :
    Follows g (t >>= k) a := by
  rw [← bind_pure a]
  exact first.bind later

theorem construct (a : Action Value) : Follows Descendant.value (Tracked.construct a) a :=
  (lift a).bind_record fun _ => record fun _ => ⟨rfl, rfl⟩

theorem get (name : String) : Follows Descendant.value (Tracked.get name) (Action.get name) :=
  (lift _).bind_record fun _ => record fun _ => ⟨rfl, rfl⟩

theorem set (name : String) (d : Descendant) :
    Follows id (Tracked.set name d) (Action.set name d.value) :=
  (lift _).bind_record fun _ => record fun _ => ⟨rfl, rfl⟩

theorem computed {t : Tracked Descendant} {a : Action Value} (h : Follows Descendant.value t a)
    (compute : Value → Value) :
    Follows Descendant.value (Tracked.computed compute t) (do return compute (← a)) :=
  h.bind fun _ => pure rfl

/-- Evaluation with the record is evaluation. -/
theorem eval (x : Expr) : Follows Descendant.value x.track x.eval := by
  induction x with
  | value recipe tag => exact (lift _).bind fun _ => construct _
  | slot name => exact get name
  | set name x ih => exact ih.bind fun d => (set name d).bind fun _ => pure rfl
  | not x ih | truth x ih | add x d ih | display x ih | typeName x ih | text x ih | number x ih =>
    exact ih.computed _
  | and left right ihl ihr => exact ihl.bind fun _ => ite ihr (pure rfl)
  | or left right ihl ihr => exact ihl.bind fun _ => ite (pure rfl) ihr
  | select condition yes no ihc ihy ihn => exact ihc.bind fun _ => ite ihy ihn
  | reference x ih =>
    refine ih.bind fun d => pure ?_
    obtain ⟨v, origin⟩ := d
    cases v <;> rfl
  | box path x ih => exact ih.bind fun _ => construct _
  | tree x ih => exact ih.bind fun _ => construct _
  | written x ih => exact ih.bind fun _ => construct _
  | parsed x ih => exact ih.bind fun _ => construct _

theorem runAll (body : List Expr) : Follows id (Tracked.runAll body) (Action.runAll body) := by
  induction body with
  | nil => exact pure rfl
  | cons x xs ih => exact (eval x).bind fun _ => ih

theorem rounds (condition : Expr) (body : List Expr) (done limit : Nat) :
    Follows id (Tracked.rounds condition body done limit)
      (Action.rounds condition body done limit) := by
  induction limit generalizing done with
  | zero => exact pure rfl
  | succ limit ih =>
    exact (eval condition).bind fun _ => ite ((runAll body).bind fun _ => ih (done + 1)) (pure rfl)

theorem loadItems (text : String) :
    Follows Prod.snd (Tracked.loadItems text) (Action.loadItems text) :=
  (lift _).bind_record fun _ => record fun _ => ⟨rfl, rfl⟩

theorem step (s : Step) : Follows id s.track s.run := by
  cases s with
  | eval x => exact (eval x).bind fun _ => pure rfl
  | whileLoop condition body limit => exact (rounds condition body 0 limit).bind fun _ => pure rfl
  | doWhileLoop condition body limit =>
    exact (runAll body).bind fun _ =>
      (rounds condition body 1 (limit - 1)).bind fun _ => pure rfl
  | unset name =>
    exact (lift _).bind_record fun _ => record fun _ => ⟨rfl, rfl⟩
  | same a b | payload name => exact lift _
  | load text stem =>
    exact (loadItems text).bind fun _ => (lift _).bind fun _ => record fun _ => ⟨rfl, rfl⟩

end Follows

namespace History

/-- One step with the record is the machine's step. -/
theorem machine_step (h : History) (s : Step) : (h.step s).machine = (h.machine.step s).2 :=
  (congrArg Prod.snd (Follows.step s { h with machine := { h.machine with trace := [] } })).symm

/-- The machine of a history is the one that the steps lead to without the record. -/
theorem machine_foldl (h : History) (steps : List Step) :
    (steps.foldl step h).machine = steps.foldl (fun m s => (m.step s).2) h.machine :=
  (List.foldl_hom machine fun h s => (machine_step h s).symm).symm

/-- The machine of a history is the one that the program runs on with. -/
theorem run_after (h : History) (steps rest : List Step) :
    h.machine.run (steps ++ rest) =
      h.machine.run steps ++ (steps.foldl step h).machine.run rest := by
  induction steps generalizing h with
  | nil => rfl
  | cons s steps ih =>
    show (h.machine.step s).1 :: (h.machine.step s).2.run (steps ++ rest) = _
    rw [← machine_step, ih (h.step s)]
    show _ = (h.machine.step s).1 :: (h.machine.step s).2.run steps ++ _
    rw [← machine_step]
    rfl

end History

end Untyped
