import Untyped.Value.Basic

/-!
Named slots. A slot that was never set holds nothing.
-/
namespace Untyped

/-- The slots that are set, each name once. -/
structure Slots where
  entries : List (String × Value)
  distinct : entries.Pairwise fun a b => a.1 ≠ b.1

namespace Slots

def empty : Slots := ⟨[], .nil⟩

def get? (slots : Slots) (name : String) : Option Value := slots.entries.lookup name

def get (slots : Slots) (name : String) : Value := (slots.get? name).getD .null

def erase (slots : Slots) (name : String) : Slots where
  entries := slots.entries.filter fun entry => entry.1 != name
  distinct := slots.distinct.filter _

theorem ne_of_mem_erase {slots : Slots} {name : String} {entry : String × Value}
    (h : entry ∈ (slots.erase name).entries) : name ≠ entry.1 := by
  have other := (List.mem_filter.1 h).2
  intro same
  simp [same] at other

def set (slots : Slots) (name : String) (v : Value) : Slots where
  entries := (name, v) :: (slots.erase name).entries
  distinct := List.pairwise_cons.2 ⟨fun _ => ne_of_mem_erase, (slots.erase name).distinct⟩

theorem get?_erase (slots : Slots) (name other : String) :
    (slots.erase name).get? other = if other = name then none else slots.get? other := by
  show List.lookup other (slots.entries.filter fun entry => entry.1 != name) = _
  unfold get?
  induction slots.entries with
  | nil => simp
  | cons entry rest ih =>
    obtain ⟨key, v⟩ := entry
    by_cases hk : key = name
    · subst hk
      simp only [List.filter_cons, bne_self_eq_false, Bool.false_eq_true, if_false, ih]
      by_cases ho : other = key
      · simp [ho]
      · simp [ho, List.lookup_cons, beq_false_of_ne ho]
    · simp only [List.filter_cons, bne_iff_ne, ne_eq, hk, not_false_eq_true, if_true,
        List.lookup_cons, ih]
      by_cases ho : other = key
      · simp [ho, hk]
      · simp [beq_false_of_ne ho]

theorem get?_set (slots : Slots) (name other : String) (v : Value) :
    (slots.set name v).get? other = if other = name then some v else slots.get? other := by
  show List.lookup other ((name, v) :: (slots.erase name).entries) = _
  rw [List.lookup_cons]
  by_cases h : other = name
  · simp [h]
  · rw [beq_false_of_ne h, if_neg h]
    exact (slots.get?_erase name other).trans (if_neg h)

/-- Whether two slots hold handles to one object, if both hold references. -/
def same? (slots : Slots) (a b : String) : Option Bool :=
  match slots.get a, slots.get b with
  | .ref r, .ref s => some (r.same s)
  | _, _ => none

end Slots

end Untyped
