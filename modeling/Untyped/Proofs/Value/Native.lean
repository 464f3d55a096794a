import Mathlib
import Untyped.Value.Native

/-! The truth of data before they are boxed, at every type: scalars, references and values, options
of them at any depth, and borrowed views at any place. -/
namespace Untyped

inductive NativeType where
  | double
  | single
  | int
  | borrowedText
  | text
  | reference
  | value
  | option (t : NativeType)

namespace NativeType

def Data : NativeType → Type
  | double => Double
  | single => Single
  | int => Int32
  | borrowedText => String
  | text => String
  | reference => Reference
  | value => Value
  | option t => Option t.Data

def native : (t : NativeType) → t.Data → Native
  | double, x => .double x
  | single, x => .single x
  | int, n => .int n
  | borrowedText, s => .borrowed (.text s)
  | text, s => .text s
  | reference, r => .reference r
  | value, v => .value v
  | option _, none => .absent
  | option t, some x => .present (t.native x)

/-- The value inside all the options, if none of them is empty. -/
def content? : (t : NativeType) → t.Data → Option Value
  | double, x => some (.double x)
  | single, x => some (.single x)
  | int, n => some (.int n)
  | borrowedText, s => some (.text s)
  | text, s => some (.text s)
  | reference, r => some (.ref r)
  | value, v => some v
  | option t, x => Option.bind x t.content?

end NativeType

namespace Native

def bare : Native → Native
  | present n => present n.bare
  | borrowed n => n.bare
  | n => n

theorem truth_box (n : Native) : n.box.truth = n.truth := by
  induction n with
  | present n ih => exact ih
  | borrowed n ih => exact ih
  | _ => rfl

theorem truth_bare (n : Native) : n.bare.truth = n.truth := by
  induction n with
  | present n ih => exact ih
  | borrowed n ih => exact ih
  | _ => rfl

end Native

/-- Boxing flattens the options: the value inside all of them, or nothing. -/
theorem NativeType.box_native (t : NativeType) (x : t.Data) :
    (t.native x).box = (t.content? x).getD .null := by
  induction t with
  | option t ih =>
    cases x with
    | none => rfl
    | some x => exact ih x
  | _ => rfl

/-- At every type a datum is true exactly if the value it is boxed as is true, which is the value
inside all its options, or nothing where one of them is empty; and data that differ in no more than
what is borrowed are true together. -/
theorem NativeType.truth_native :
    (∀ (t : NativeType) (x : t.Data), (t.native x).truth = (t.native x).box.truth ∧
      (t.native x).box = (t.content? x).getD .null) ∧
    ∀ m n : Native, m.bare = n.bare → m.truth = n.truth := by
  constructor
  · intro t x
    exact ⟨(t.native x).truth_box.symm, t.box_native x⟩
  · intro m n same
    rw [← m.truth_bare, ← n.truth_bare, same]

/-- An option of an option of a text, borrowed inside and outside: the text is there, and empty. -/
theorem NativeType.truth_native_borrowed :
    let inner : Native := .present (.present (.text ""))
    let outer : Native := .borrowed (.present (.borrowed (.borrowed (.present (.borrowed (.text ""))))))
    outer.bare = inner.bare ∧ outer.truth = inner.truth ∧
      inner = (option (option text)).native (some (some "")) ∧ inner.box = .text "" ∧
      inner.truth = false := by
  intro inner outer
  have same : outer.bare = inner.bare := rfl
  exact ⟨same, truth_native.2 outer inner same, rfl, rfl, by decide⟩

end Untyped
