import Mathlib
import Untyped.Proofs.Decimal.Layout
import Untyped.Proofs.Text.Quoted
import Untyped.Proofs.Value.Distinct
import Untyped.Value.Show

/-! The dump of a value tells the value: its kind by the first letter, and what it holds by what stands
in the parentheses. -/
namespace Untyped

namespace Binary

variable {f : Format}

theorem read?_write [f.Proper] (x : Binary f) : read? f (x.write Value.style) = some x := by
  cases x with
  | nan => rfl
  | infinite negative => cases negative <;> rfl
  | finite x =>
    have scale : 0 < 10 ^ (x.shortest .up).fraction.length := Nat.pow_pos (by omega)
    have rounds := x.roundsTo_shortest .up
    rw [← Decimal.toNat_whole_append_fraction] at rounds
    have rank := (f.nearestRank_eq_iff scale x.rank).2 (by exact_mod_cast rounds)
    change read? f (if x.negative then '-' :: (x.shortest .up).positional
      else (x.shortest .up).positional) = _
    rw [read?_positional, nearest_of_lt (rank.trans_lt x.rank_lt)]
    simp only [rank]

theorem write_injective [f.Proper] :
    Function.Injective fun x : Binary f => x.write Value.style := by
  intro x y same
  apply Option.some.inj
  rw [← read?_write x, ← read?_write y]
  exact congrArg (read? f) same

end Binary

namespace Value

/-- The values are of one kind and hold the same: data of one bit pattern, the NaNs being one, one
integer, texts of the same characters, or references of the same type path. -/
inductive Alike : Value → Value → Prop where
  | double {x y : Double} (bits : x.bits? = y.bits?) : Alike (double x) (double y)
  | single {x y : Single} (bits : x.bits? = y.bits?) : Alike (single x) (single y)
  | int {n m : Int32} (value : n.toInt = m.toInt) : Alike (int n) (int m)
  | text {s t : String} (chars : s.toList = t.toList) : Alike (text s) (text t)
  | ref {r q : Reference} (path : r.typePath = q.typePath) : Alike (ref r) (ref q)
  | null : Alike null null

def label : Value → List Char
  | double _ => ['D', 'o', 'u', 'b', 'l', 'e']
  | single _ => ['F', 'l', 'o', 'a', 't']
  | int _ => ['I', 'n', 't']
  | text _ => ['T', 'e', 'x', 't']
  | ref _ => ['R', 'e', 'f']
  | null => ['N', 'u', 'l', 'l']

def content : Value → List Char
  | double x => '(' :: (x.write style ++ [')'])
  | single x => '(' :: (x.write style ++ [')'])
  | int n => '(' :: (Json.Number.writeInt n.toInt ++ [')'])
  | text s => '(' :: (Text.quote s.toList ++ [')'])
  | ref r => ['(', '[', 'r', 'e', 'f', ' '] ++ (r.typePath.toList ++ [']', ')'])
  | null => []

theorem toList_dump (v : Value) : v.dump.toList = v.label ++ v.content := by
  cases v <;> simp [dump, display, Reference.display, label, content]

theorem label_eq_of_head? {v w : Value} (same : v.label.head? = w.label.head?) :
    v.label = w.label := by
  cases v <;> cases w <;> first | rfl | simp [label] at same

theorem label_and_content_eq {v w : Value} (same : v.dump = w.dump) :
    v.label = w.label ∧ v.content = w.content := by
  have texts : v.label ++ v.content = w.label ++ w.content := by
    rw [← toList_dump, ← toList_dump, same]
  have first (u : Value) : (u.label ++ u.content).head? = u.label.head? := by cases u <;> rfl
  have labels : v.label = w.label := label_eq_of_head? (by rw [← first v, texts, first w])
  rw [labels] at texts
  exact ⟨labels, List.append_cancel_left texts⟩

theorem Alike.dump_eq {v w : Value} (h : v.Alike w) : v.dump = w.dump := by
  cases h with
  | double bits => rw [Binary.bits?_injective bits]
  | single bits => rw [Binary.bits?_injective bits]
  | int value => rw [Int32.toInt_inj.1 value]
  | text chars => rw [String.toList_inj.1 chars]
  | ref path => simp only [dump, Reference.display, path]
  | null => rfl

/-- Within a kind, what stands behind its name tells what the value holds. -/
theorem alike_of_content_eq {v w : Value} (labels : v.label = w.label)
    (contents : v.content = w.content) : v.Alike w := by
  have inner {x y : List Char} (same : '(' :: (x ++ [')']) = '(' :: (y ++ [')'])) : x = y :=
    List.append_cancel_right (List.cons.inj same).2
  cases v with
  | double x =>
    cases w with
    | double y => exact .double (congrArg Binary.bits? (Binary.write_injective (inner contents)))
    | _ => simp [label] at labels
  | single x =>
    cases w with
    | single y => exact .single (congrArg Binary.bits? (Binary.write_injective (inner contents)))
    | _ => simp [label] at labels
  | int n =>
    cases w with
    | int m =>
      have numbers : Json.Number.ofInt32 n = .ofInt32 m :=
        Json.Number.write_injective (inner contents)
      exact .int (Json.Number.integer.inj numbers)
    | _ => simp [label] at labels
  | text s =>
    cases w with
    | text t => exact .text (Text.quote_append_inj (List.cons.inj contents).2).1
    | _ => simp [label] at labels
  | ref r =>
    cases w with
    | ref q =>
      exact .ref (String.toList_inj.1 (List.append_cancel_right (List.append_cancel_left contents)))
    | _ => simp [label] at labels
  | null =>
    cases w with
    | null => exact .null
    | _ => simp [label] at labels

/-- Two values have one dump exactly if they are of one kind and hold the same: no text, no type path
and no number is dumped as another value is. -/
theorem dump_eq_iff (v w : Value) : v.dump = w.dump ↔ v.Alike w := by
  constructor
  · intro same
    obtain ⟨labels, contents⟩ := label_and_content_eq same
    exact alike_of_content_eq labels contents
  · exact Alike.dump_eq

-- A backslash of the text is doubled, so that the text is not taken for an escape.
example : (text "\\u\x7b41\x7d").dump = "Text(\"\\\\u\x7b41\x7d\")" := by decide +kernel

end Value

end Untyped
