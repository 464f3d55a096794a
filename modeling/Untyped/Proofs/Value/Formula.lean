import Mathlib
import Untyped.Value.Connective

/-! Formulas of connectives over leaves with effects, evaluated with values and with bare truth
values. No law is assumed of the leaves beyond those of their monad. -/
namespace Untyped

inductive Formula (α : Type) where
  | leaf (a : α)
  | not (e : Formula α)
  | and (left right : Formula α)
  | or (left right : Formula α)
  | select (condition yes no : Formula α)

namespace Formula

section Evaluation

variable {α : Type} {m : Type → Type} [Monad m]

/-- The value of a formula, by the connectives of values. -/
def eval (run : α → m Value) : Formula α → m Value
  | leaf a => run a
  | not e => do return (← eval run e).not
  | and left right => do (← eval run left).andThen (eval run right)
  | or left right => do (← eval run left).orElse (eval run right)
  | select condition yes no => do (← eval run condition).select (eval run yes) (eval run no)

/-- The truth of a formula, without any values of its own. -/
def holds (run : α → m Bool) : Formula α → m Bool
  | leaf a => run a
  | not e => do return !(← holds run e)
  | and left right => do if ← holds run left then holds run right else return false
  | or left right => do if ← holds run left then return true else holds run right
  | select condition yes no => do
    if ← holds run condition then holds run yes else holds run no

end Evaluation

theorem truth_ofBool (b : Bool) : (Value.ofBool b).truth = b := by
  cases b <;> decide

theorem truth_not (v : Value) : v.not.truth = !v.truth := truth_ofBool _

section Truth

variable {α : Type} {m : Type → Type} [Monad m]

theorem truth_select (condition : Value) (yes no : m Value) :
    Value.truth <$> condition.select yes no =
      if condition.truth then Value.truth <$> yes else Value.truth <$> no := by
  rw [Value.select]
  by_cases h : condition.truth <;> simp [h]

variable [LawfulMonad m]

theorem truth_andThen (left : Value) (right : m Value) :
    Value.truth <$> left.andThen right =
      if left.truth then Value.truth <$> right else pure false := by
  rw [Value.andThen]
  by_cases h : left.truth <;> simp [h]

theorem truth_orElse (left : Value) (right : m Value) :
    Value.truth <$> left.orElse right =
      if left.truth then pure true else Value.truth <$> right := by
  rw [Value.orElse]
  by_cases h : left.truth <;> simp [h]

theorem truth_eval (run : α → m Value) (e : Formula α) :
    Value.truth <$> e.eval run = e.holds fun a => Value.truth <$> run a := by
  induction e with
  | leaf a => rfl
  | not e ih => simp only [eval, holds, map_bind, map_pure, truth_not, ← ih, bind_map_left]
  | and left right ihl ihr =>
    simp only [eval, holds, map_bind, truth_andThen, ← ihl, ← ihr, bind_map_left]
  | or left right ihl ihr =>
    simp only [eval, holds, map_bind, truth_orElse, ← ihl, ← ihr, bind_map_left]
  | select condition yes no ihc ihy ihn =>
    simp only [eval, holds, map_bind, truth_select, ← ihc, ← ihy, ← ihn, bind_map_left]

end Truth

section Leaves

variable {α β : Type}

def leaves : Formula α → List α
  | leaf a => [a]
  | not e => leaves e
  | and left right => leaves left ++ leaves right
  | or left right => leaves left ++ leaves right
  | select condition yes no => leaves condition ++ leaves yes ++ leaves no

def numberedFrom (n : Nat) : Formula α → Formula (Nat × α)
  | leaf a => leaf (n, a)
  | not e => not (numberedFrom n e)
  | and left right => and (numberedFrom n left) (numberedFrom (n + left.leaves.length) right)
  | or left right => or (numberedFrom n left) (numberedFrom (n + left.leaves.length) right)
  | select condition yes no =>
    select (numberedFrom n condition) (numberedFrom (n + condition.leaves.length) yes)
      (numberedFrom (n + condition.leaves.length + yes.leaves.length) no)

theorem leaves_numberedFrom (e : Formula α) (n : Nat) :
    (e.numberedFrom n).leaves.map Prod.fst = List.range' n e.leaves.length := by
  induction e generalizing n with
  | leaf a => rfl
  | not e ih => exact ih n
  | and left right ihl ihr =>
    simp only [numberedFrom, leaves, List.map_append, ihl, ihr, List.length_append,
      List.range'_append_1]
  | or left right ihl ihr =>
    simp only [numberedFrom, leaves, List.map_append, ihl, ihr, List.length_append,
      List.range'_append_1]
  | select condition yes no ihc ihy ihn =>
    simp only [numberedFrom, leaves, List.map_append, ihc, ihy, ihn, List.length_append,
      List.range'_append_1, Nat.add_assoc]

variable {σ : Type}

theorem eval_not (run : α → StateM σ Value) (e : Formula α) (s : σ) :
    (not e).eval run s = ((e.eval run s).1.not, (e.eval run s).2) := rfl

theorem eval_and (run : α → StateM σ Value) (left right : Formula α) (s : σ) :
    (and left right).eval run s =
      (left.eval run s).1.andThen (right.eval run) (left.eval run s).2 := rfl

theorem eval_or (run : α → StateM σ Value) (left right : Formula α) (s : σ) :
    (or left right).eval run s =
      (left.eval run s).1.orElse (right.eval run) (left.eval run s).2 := rfl

theorem eval_select (run : α → StateM σ Value) (condition yes no : Formula α) (s : σ) :
    (select condition yes no).eval run s =
      (condition.eval run s).1.select (yes.eval run) (no.eval run) (condition.eval run s).2 := rfl

/-- A numbered leaf that is run and put on record, behind those that were run before it. -/
def recorded (leaf : Nat × StateM σ β) : StateM (σ × List Nat) β := fun (s, record) =>
  let (v, s) := leaf.2 s
  (v, s, record ++ [leaf.1])

theorem exists_record (e : Formula (Nat × StateM σ Value)) (s : σ × List Nat) :
    ∃ run, (e.eval recorded s).2.2 = s.2 ++ run ∧ run.Sublist (e.leaves.map Prod.fst) := by
  induction e generalizing s with
  | leaf a => exact ⟨[a.1], rfl, List.Sublist.refl _⟩
  | not e ih => exact ih s
  | and left right ihl ihr =>
    obtain ⟨first, hfirst, subFirst⟩ := ihl s
    rw [eval_and, Value.andThen, leaves, List.map_append]
    by_cases decides : (left.eval recorded s).1.truth
    · -- the right leaves are run behind all that the left ones have put on record
      obtain ⟨second, hsecond, subSecond⟩ := ihr (left.eval recorded s).2
      rw [if_pos decides, hsecond, hfirst, List.append_assoc]
      exact ⟨_, rfl, subFirst.append subSecond⟩
    · rw [if_neg decides]
      exact ⟨first, hfirst, subFirst.trans (List.sublist_append_left _ _)⟩
  | or left right ihl ihr =>
    obtain ⟨first, hfirst, subFirst⟩ := ihl s
    rw [eval_or, Value.orElse, leaves, List.map_append]
    by_cases decides : (left.eval recorded s).1.truth
    · rw [if_pos decides]
      exact ⟨first, hfirst, subFirst.trans (List.sublist_append_left _ _)⟩
    · obtain ⟨second, hsecond, subSecond⟩ := ihr (left.eval recorded s).2
      rw [if_neg decides, hsecond, hfirst, List.append_assoc]
      exact ⟨_, rfl, subFirst.append subSecond⟩
  | select condition yes no ihc ihy ihn =>
    obtain ⟨first, hfirst, subFirst⟩ := ihc s
    rw [eval_select, Value.select, leaves, List.map_append, List.map_append]
    by_cases decides : (condition.eval recorded s).1.truth
    · obtain ⟨second, hsecond, subSecond⟩ := ihy (condition.eval recorded s).2
      rw [if_pos decides, hsecond, hfirst, List.append_assoc]
      exact ⟨_, rfl, (subFirst.append subSecond).trans (List.sublist_append_left _ _)⟩
    · obtain ⟨second, hsecond, subSecond⟩ := ihn (condition.eval recorded s).2
      rw [if_neg decides, hsecond, hfirst, List.append_assoc]
      exact ⟨_, rfl, (subFirst.trans (List.sublist_append_left _ _)).append subSecond⟩

/-- Where each leaf is run as another one is under a projection of the states, so is a formula. -/
theorem eval_project {τ : Type} {run : α → StateM τ Value} {run' : α → StateM σ Value}
    (project : τ → σ) (each : ∀ a s, ((run a s).1, project (run a s).2) = run' a (project s))
    (e : Formula α) (s : τ) :
    ((e.eval run s).1, project (e.eval run s).2) = e.eval run' (project s) := by
  induction e generalizing s with
  | leaf a => exact each a s
  | not e ih => rw [eval_not, eval_not, ← ih s]
  | and left right ihl ihr =>
    rw [eval_and, eval_and, ← ihl s, Value.andThen, Value.andThen]
    by_cases decides : (left.eval run s).1.truth
    · rw [if_pos decides, if_pos decides]
      exact ihr _
    · rw [if_neg decides, if_neg decides]
      rfl
  | or left right ihl ihr =>
    rw [eval_or, eval_or, ← ihl s, Value.orElse, Value.orElse]
    by_cases decides : (left.eval run s).1.truth
    · rw [if_pos decides, if_pos decides]
      rfl
    · rw [if_neg decides, if_neg decides]
      exact ihr _
  | select condition yes no ihc ihy ihn =>
    rw [eval_select, eval_select, ← ihc s, Value.select, Value.select]
    by_cases decides : (condition.eval run s).1.truth
    · rw [if_pos decides, if_pos decides]
      exact ihy _
    · rw [if_neg decides, if_neg decides]
      exact ihn _

theorem eval_numberedFrom (e : Formula (StateM σ Value)) (n : Nat) :
    (e.numberedFrom n).eval Prod.snd = e.eval id := by
  induction e generalizing n with
  | leaf a => rfl
  | not e ih => rw [numberedFrom, eval, eval, ih]
  | and left right ihl ihr => rw [numberedFrom, eval, eval, ihl, ihr]
  | or left right ihl ihr => rw [numberedFrom, eval, eval, ihl, ihr]
  | select condition yes no ihc ihy ihn => rw [numberedFrom, eval, eval, ihc, ihy, ihn]

theorem eval_recorded (e : Formula (StateM σ Value)) (n : Nat) (s : σ × List Nat) :
    (((e.numberedFrom n).eval recorded s).1, ((e.numberedFrom n).eval recorded s).2.1) =
      e.eval id s.1 := by
  rw [← e.eval_numberedFrom n]
  exact eval_project Prod.fst (fun _ _ => rfl) _ s

end Leaves

/-- A formula is true exactly if its value is. Either way the same leaves are run, in their order
and each at most once, and the state ends the same; the record of them changes nothing. -/
theorem truth_eval_recorded {σ : Type} (e : Formula (StateM σ Value)) (s : σ) :
    let valued := (e.numberedFrom 0).eval recorded (s, [])
    let plain := (e.numberedFrom 0).holds (fun leaf => Value.truth <$> recorded leaf) (s, [])
    valued.1.truth = plain.1 ∧ valued.2.1 = plain.2.1 ∧ valued.2.2 = plain.2.2 ∧
      plain.2.2.Sublist (List.range e.leaves.length) ∧
      e.eval id s = (valued.1, valued.2.1) ∧
      e.holds (fun leaf => Value.truth <$> leaf) s = (plain.1, plain.2.1) := by
  intro valued plain
  have same : (valued.1.truth, valued.2) = plain :=
    congrFun (truth_eval recorded (e.numberedFrom 0)) (s, [])
  have unrecorded : e.eval id s = (valued.1, valued.2.1) := (eval_recorded e 0 (s, [])).symm
  have holds : ((e.eval id s).1.truth, (e.eval id s).2) =
      e.holds (fun leaf => Value.truth <$> leaf) s := congrFun (truth_eval id e) s
  obtain ⟨run, hrun, sub⟩ := exists_record (e.numberedFrom 0) (s, [])
  rw [leaves_numberedFrom, ← List.range_eq_range'] at sub
  rw [← same, ← holds, unrecorded]
  refine ⟨rfl, rfl, rfl, ?_, rfl, rfl⟩
  change valued.2.2 = [] ++ run at hrun
  rwa [hrun]

end Formula

end Untyped
