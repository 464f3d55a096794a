import Mathlib
import Untyped.Proofs.Value.Yielded

/-! Rows of operands under one connective. However they are grouped, they are run in turn up to the
first that decides; and a negated row is a row of negations under the other connective. -/
namespace Untyped

/-- The connective that goes on while its operands have the truth `b`: the conjunction while they
are true, the disjunction while they are false. -/
def Value.onward {m : Type → Type} [Monad m] (b : Bool) (left : Value) (right : m Value) : m Value :=
  if left.truth = b then right else pure left

def Formula.onward {α : Type} : Bool → Formula α → Formula α → Formula α
  | true => .and
  | false => .or

/-- A row of operands in parentheses. -/
inductive Grouping (α : Type) where
  | one (a : α)
  | both (left right : Grouping α)

namespace Grouping

section Rows

variable {α β : Type} {m : Type → Type} [Monad m]

def operands : Grouping α → List α
  | one a => [a]
  | both left right => left.operands ++ right.operands

theorem operands_ne_nil (g : Grouping α) : g.operands ≠ [] := by
  induction g with
  | one a => exact List.cons_ne_nil a []
  | both left right ihl _ => exact List.append_ne_nil_of_left_ne_nil ihl _

def chain (b : Bool) (operand : α → Formula β) : Grouping α → Formula β
  | one a => operand a
  | both left right => .onward b (left.chain b operand) (right.chain b operand)

/-- The operands one after the other, up to the first that has not the truth `b`. -/
def inTurn (b : Bool) (run : α → m Value) : List α → m Value
  | [] => pure (.ofBool b)
  | [a] => run a
  | a :: next :: rest => run a >>= (·.onward b (inTurn b run (next :: rest)))

theorem eval_onward (run : β → m Value) (b : Bool) (left right : Formula β) :
    (Formula.onward b left right).eval run = left.eval run >>= (·.onward b (right.eval run)) := by
  cases b with
  | true => rfl
  | false =>
    have decided (v : Value) : v.orElse (right.eval run) = v.onward false (right.eval run) := by
      rw [Value.orElse, Value.onward]
      cases v.truth <;> rfl
    simp only [Formula.onward, Formula.eval, decided]

variable [LawfulMonad m]

theorem onward_bind (b : Bool) (v : Value) (x y : m Value) :
    v.onward b x >>= (·.onward b y) = v.onward b (x >>= (·.onward b y)) := by
  rw [Value.onward, Value.onward]
  by_cases goesOn : v.truth = b
  · rw [if_pos goesOn, if_pos goesOn]
  · rw [if_neg goesOn, if_neg goesOn, pure_bind, Value.onward, if_neg goesOn]

theorem inTurn_append (b : Bool) (run : α → m Value) {left right : List α} (someLeft : left ≠ [])
    (someRight : right ≠ []) :
    inTurn b run (left ++ right) = inTurn b run left >>= (·.onward b (inTurn b run right)) := by
  induction left with
  | nil => exact absurd rfl someLeft
  | cons a left ih =>
    cases left with
    | nil =>
      obtain ⟨next, rest, rfl⟩ := List.exists_cons_of_ne_nil someRight
      rfl
    | cons next rest =>
      have step (row : List α) : inTurn b run (a :: next :: row) =
          run a >>= (·.onward b (inTurn b run (next :: row))) := rfl
      rw [List.cons_append, List.cons_append, step, step, bind_assoc, ← List.cons_append,
        ih (List.cons_ne_nil next rest)]
      simp only [onward_bind]

/-- A chain runs its operands in turn, whatever its grouping. -/
theorem eval_chain (b : Bool) (operand : α → Formula β) (run : β → m Value) (g : Grouping α) :
    (g.chain b operand).eval run = inTurn b (fun a => (operand a).eval run) g.operands := by
  induction g with
  | one a => rfl
  | both left right ihl ihr =>
    rw [chain, eval_onward, ihl, ihr, operands,
      inTurn_append b _ left.operands_ne_nil right.operands_ne_nil]

/-- The negation goes into the operands and turns the connective around: a negated value goes on
exactly where the value itself does under the other one. -/
theorem not_onward (b : Bool) (v : Value) (x : m Value) :
    Value.not <$> v.onward b x = v.not.onward (!b) (Value.not <$> x) := by
  rw [Value.onward, Value.onward, Formula.truth_not]
  by_cases goesOn : v.truth = b
  · rw [if_pos goesOn, if_pos (congrArg _ goesOn)]
  · rw [if_neg goesOn, if_neg fun same => goesOn (Bool.not_inj same), map_pure]

theorem not_inTurn (b : Bool) (run : α → m Value) (row : List α) :
    Value.not <$> inTurn b run row = inTurn (!b) (fun a => Value.not <$> run a) row := by
  induction row with
  | nil => rw [inTurn, inTurn, map_pure, Value.not, Formula.truth_ofBool]
  | cons a row ih =>
    cases row with
    | nil => rfl
    | cons next rest =>
      rw [inTurn, inTurn, ← ih, map_bind, bind_map_left]
      simp only [not_onward]

theorem eval_not (run : β → m Value) (e : Formula β) :
    e.not.eval run = Value.not <$> e.eval run := by
  rw [Formula.eval, map_eq_pure_bind]

end Rows

section Stop

variable {σ : Type}

/-- The record of a row that is run up to the first operand that has not the truth `b`, and yields
what this one has yielded; if there is none, it is run up to its end. -/
def StopsAt (b : Bool) (row : List Nat) (record : List (Nat × Value)) (v : Value) : Prop :=
  ∃ earlier last, record = earlier ++ [(last, v)] ∧ record.map Prod.fst <+: row ∧
    (∀ entry ∈ earlier, entry.2.truth = b) ∧ (v.truth = b → record.map Prod.fst = row)

theorem StopsAt.cons {b : Bool} {row : List Nat} {record : List (Nat × Value)} {v : Value}
    (stops : StopsAt b row record v) {entry : Nat × Value} (goesOn : entry.2.truth = b) :
    StopsAt b (entry.1 :: row) (entry :: record) v := by
  obtain ⟨earlier, last, rfl, initial, before, whole⟩ := stops
  refine ⟨entry :: earlier, last, rfl, List.cons_prefix_cons.mpr ⟨rfl, initial⟩, ?_, ?_⟩
  · rintro e (_ | ⟨_, later⟩)
    · exact goesOn
    · exact before e later
  · exact fun all => congrArg _ (whole all)

theorem inTurn_cons (b : Bool) {α : Type} (run : α → StateM σ Value) (a next : α) (rest : List α)
    (s : σ) :
    inTurn b run (a :: next :: rest) s =
      (run a s).1.onward b (inTurn b run (next :: rest)) (run a s).2 := rfl

theorem exists_stop (b : Bool) {row : List (Nat × StateM σ Value)} (some : row ≠ [])
    (s : σ × List (Nat × Value)) :
    ∃ record, (inTurn b Formula.yielded row s).2.2 = s.2 ++ record ∧
      StopsAt b (row.map Prod.fst) record (inTurn b Formula.yielded row s).1 := by
  induction row generalizing s with
  | nil => exact absurd rfl some
  | cons a row ih =>
    -- what the first operand yields, and the record and state behind it
    obtain ⟨v, behind, hrun⟩ : ∃ v behind, Formula.yielded a s = (v, behind) := ⟨_, _, rfl⟩
    have hbehind : behind.2 = s.2 ++ [(a.1, v)] := by
      cases hrun
      rfl
    have alone (row : List Nat) (ends : v.truth = b → row = []) :
        StopsAt b (a.1 :: row) [(a.1, v)] v :=
      ⟨[], a.1, rfl, ⟨row, rfl⟩, by simp, fun all => by rw [ends all]; rfl⟩
    cases row with
    | nil =>
      refine ⟨[(a.1, v)], ?_, ?_⟩
      · rw [inTurn, hrun, hbehind]
      · rw [inTurn, hrun]
        exact alone [] fun _ => rfl
    | cons next rest =>
      rw [inTurn_cons, hrun, Value.onward]
      by_cases goesOn : v.truth = b
      · obtain ⟨record, hrecord, stops⟩ := ih (List.cons_ne_nil next rest) behind
        rw [if_pos goesOn]
        refine ⟨(a.1, v) :: record, ?_, stops.cons goesOn⟩
        rw [hrecord, hbehind, List.append_assoc, List.singleton_append]
      · rw [if_neg goesOn]
        exact ⟨[(a.1, v)], hbehind, alone _ fun all => absurd all goesOn⟩

end Stop

/-- A row under one connective runs its operands in turn up to the first that decides, and yields
the value of the last one run; its negation runs the same ones and yields a canonical number. The
value, the record and the state depend neither on the grouping nor on whether the row is negated as
a whole, or each of its operands under the other connective; and no formula depends on whether a
record is kept. -/
theorem eval_regrouped {σ : Type} (b : Bool) (g : Grouping (Nat × StateM σ Value)) (s : σ) :
    let run := (g.chain b .leaf).eval Formula.yielded (s, [])
    let negated := (g.chain b .leaf).not.eval Formula.yielded (s, [])
    StopsAt b (g.operands.map Prod.fst) run.2.2 run.1 ∧
      negated = (.ofBool !run.1.truth, run.2) ∧
      (∀ h : Grouping (Nat × StateM σ Value), h.operands = g.operands →
        (h.chain b .leaf).eval Formula.yielded (s, []) = run ∧
        (h.chain (!b) fun a => (Formula.leaf a).not).eval Formula.yielded (s, []) = negated) ∧
      ∀ e : Formula (Nat × StateM σ Value), e.eval Prod.snd s =
        ((e.eval Formula.yielded (s, [])).1, (e.eval Formula.yielded (s, [])).2.1) := by
  intro run negated
  have turns : (g.chain b .leaf).eval Formula.yielded = inTurn b Formula.yielded g.operands :=
    eval_chain b .leaf Formula.yielded g
  have hrun : run = inTurn b Formula.yielded g.operands (s, []) := congrFun turns _
  obtain ⟨record, hrecord, stops⟩ := exists_stop b g.operands_ne_nil (s, [])
  refine ⟨?_, rfl, fun h same => ⟨?_, ?_⟩, fun e => e.eval_yielded s⟩
  · rw [hrun, hrecord]
    exact stops
  · rw [eval_chain, same, ← eval_chain]
  · have inside : (h.chain (!b) fun a => (Formula.leaf a).not).eval Formula.yielded =
        Value.not <$> inTurn b Formula.yielded g.operands := by
      rw [eval_chain, same, not_inTurn]
      exact congrArg (inTurn (!b) · g.operands) (funext fun a => eval_not _ (.leaf a))
    rw [inside, ← turns, ← eval_not]

/-- Three operands in both groupings, of which the second is false. -/
theorem eval_regrouped_three :
    let counted (n : Nat) (v : Value) : Grouping (Nat × StateM Nat Value) :=
      .one (n, fun s => (v, s + 1))
    let g := both (both (counted 0 (.int 5)) (counted 1 (.text ""))) (counted 2 .null)
    let h := both (counted 0 (.int 5)) (both (counted 1 (.text "")) (counted 2 .null))
    h.operands = g.operands ∧
      (g.chain true .leaf).eval Formula.yielded (0, []) =
        (.text "", 2, [(0, .int 5), (1, .text "")]) ∧
      (h.chain true .leaf).eval Formula.yielded (0, []) =
        (g.chain true .leaf).eval Formula.yielded (0, []) ∧
      (h.chain false fun a => (Formula.leaf a).not).eval Formula.yielded (0, []) =
        (g.chain true .leaf).not.eval Formula.yielded (0, []) := by
  intro counted g h
  have same : h.operands = g.operands := rfl
  exact ⟨same, rfl, (eval_regrouped true g 0).2.2.1 h same⟩

end Grouping

end Untyped
