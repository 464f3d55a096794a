import Mathlib
import Untyped.Proofs.Value.Formula

/-! What formulas without negation yield: no value of their own, but the one that the last of their
leaves has yielded. -/
namespace Untyped.Formula

section

variable {α β σ : Type}

/-- No negation occurs, so that no connective makes a value. -/
def Affirmative : Formula α → Prop
  | leaf _ => True
  | not _ => False
  | and left right => left.Affirmative ∧ right.Affirmative
  | or left right => left.Affirmative ∧ right.Affirmative
  | select condition yes no => condition.Affirmative ∧ yes.Affirmative ∧ no.Affirmative

theorem Affirmative.numberedFrom {e : Formula α} (affirmative : e.Affirmative) (n : Nat) :
    (e.numberedFrom n).Affirmative := by
  induction e generalizing n with
  | leaf a => trivial
  | not e ih => exact affirmative.elim
  | and left right ihl ihr => exact ⟨ihl affirmative.1 n, ihr affirmative.2 _⟩
  | or left right ihl ihr => exact ⟨ihl affirmative.1 n, ihr affirmative.2 _⟩
  | select condition yes no ihc ihy ihn =>
    exact ⟨ihc affirmative.1 n, ihy affirmative.2.1 _, ihn affirmative.2.2 _⟩

def yielded (leaf : Nat × StateM σ β) : StateM (σ × List (Nat × β)) β := fun (s, record) =>
  let (v, s) := leaf.2 s
  (v, s, record ++ [(leaf.1, v)])

theorem map_fst_eval_yielded (e : Formula (Nat × StateM σ Value)) (s : σ) :
    (e.eval yielded (s, [])).2.2.map Prod.fst = (e.eval recorded (s, [])).2.2 := by
  have each (leaf : Nat × StateM σ Value) (t : σ × List (Nat × Value)) :
      ((yielded leaf t).1, Prod.map id (List.map Prod.fst) (yielded leaf t).2) =
        recorded leaf (Prod.map id (List.map Prod.fst) t) := by
    show (_, _, List.map Prod.fst (t.2 ++ [_])) = (_, _, _)
    rw [List.map_append]
    rfl
  exact congrArg (fun out => out.2.2) (eval_project _ each e (s, []))

theorem eval_yielded (e : Formula (Nat × StateM σ Value)) (s : σ) :
    e.eval Prod.snd s = ((e.eval yielded (s, [])).1, (e.eval yielded (s, [])).2.1) :=
  (eval_project Prod.fst (fun _ _ => rfl) e (s, [])).symm

/-- The last leaf on record has yielded the value of the formula. -/
theorem exists_last_yielded {e : Formula (Nat × StateM σ Value)} (affirmative : e.Affirmative)
    (s : σ × List (Nat × Value)) :
    ∃ last, (e.eval yielded s).2.2.getLast? = some (last, (e.eval yielded s).1) := by
  induction e generalizing s with
  | leaf a => exact ⟨a.1, List.getLast?_concat⟩
  | not e ih => exact affirmative.elim
  | and left right ihl ihr =>
    rw [eval_and, Value.andThen]
    by_cases decides : (left.eval yielded s).1.truth
    · rw [if_pos decides]
      exact ihr affirmative.2 _
    · rw [if_neg decides]
      exact ihl affirmative.1 s
  | or left right ihl ihr =>
    rw [eval_or, Value.orElse]
    by_cases decides : (left.eval yielded s).1.truth
    · rw [if_pos decides]
      exact ihl affirmative.1 s
    · rw [if_neg decides]
      exact ihr affirmative.2 _
  | select condition yes no _ ihy ihn =>
    -- what the condition yields is never handed on, but a branch is always run behind it
    rw [eval_select, Value.select]
    by_cases decides : (condition.eval yielded s).1.truth
    · rw [if_pos decides]
      exact ihy affirmative.2.1 _
    · rw [if_neg decides]
      exact ihn affirmative.2.2 _

end

/-- A formula without negation yields the very value that the last leaf it runs has yielded, of the
same identity if it is a reference. Its leaves are run in their order and each at most once; the
record of what they yield changes neither the value nor the state. -/
theorem eval_last_yielded {σ : Type} (e : Formula (StateM σ Value)) (affirmative : e.Affirmative)
    (s : σ) :
    let run := (e.numberedFrom 0).eval yielded (s, [])
    e.eval id s = (run.1, run.2.1) ∧
      (run.2.2.map Prod.fst).Sublist (List.range e.leaves.length) ∧
      ∃ last v, run.2.2.getLast? = some (last, v) ∧ run.1 = v ∧
        ∀ r, run.1 = .ref r → ∃ handle, v = .ref handle ∧ r.same handle := by
  intro run
  obtain ⟨record, hrecord, sub⟩ := exists_record (e.numberedFrom 0) (s, [])
  obtain ⟨last, hlast⟩ := exists_last_yielded (affirmative.numberedFrom 0) (s, [])
  refine ⟨?_, ?_, last, run.1, hlast, rfl, fun r isRef => ⟨r, isRef, beq_self_eq_true _⟩⟩
  · rw [← e.eval_numberedFrom 0]
    exact eval_yielded _ s
  · rw [leaves_numberedFrom, ← List.range_eq_range'] at sub
    rw [map_fst_eval_yielded, hrecord]
    exact sub

/-- Behind its condition, a choice takes the branch that hands on a reference; the left operand in it
is run too, and the other branch is not. -/
theorem eval_last_yielded_reference :
    let counted (v : Value) : Formula (StateM Nat Value) := leaf fun s => (v, s + 1)
    let e := select (and (counted (.text "x")) (counted (.int 3)))
      (or (counted (.text "")) (counted (.object "Node" 7))) (counted .null)
    let run := (e.numberedFrom 0).eval yielded (0, [])
    e.Affirmative ∧ e.eval id 0 = (.object "Node" 7, 4) ∧ run.2.2.map Prod.fst = [0, 1, 2, 3] ∧
      ∃ last v, run.2.2.getLast? = some (last, v) ∧ run.1 = v ∧
        ∀ r, run.1 = .ref r → ∃ handle, v = .ref handle ∧ r.same handle := by
  intro counted e run
  have affirmative : e.Affirmative := ⟨⟨trivial, trivial⟩, ⟨trivial, trivial⟩, trivial⟩
  exact ⟨affirmative, rfl, rfl, (eval_last_yielded e affirmative 0).2.2⟩

end Untyped.Formula
