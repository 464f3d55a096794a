import Mathlib
import Untyped.Proofs.Json.Grammar
import Untyped.Proofs.Text.Bytes

/-! The blanks that are skipped, against the runs of blanks of the grammar and against texts that
agree up to a place. -/
namespace Untyped.Json
open Text (Agree Alike byteLength byteLength_append)

theorem skipBlank_append (b : Blank) (rest : List Char) :
    skipBlank (b.chars ++ rest) = skipBlank rest :=
  List.dropWhile_append_of_pos b.blank

theorem skipBlank_cons {c : Char} (h : isBlank c = false) (rest : List Char) :
    skipBlank (c :: rest) = c :: rest :=
  List.dropWhile_cons_of_neg (by simp [h])

theorem skipBlank_skipBlank (text : List Char) : skipBlank (skipBlank text) = skipBlank text :=
  List.dropWhile_idempotent _ text

theorem skipBlank_blank (b : Blank) : skipBlank b.chars = [] :=
  List.dropWhile_eq_nil_iff.2 b.blank

theorem exists_blank (text : List Char) : ∃ b : Blank, text = b.chars ++ skipBlank text :=
  ⟨⟨text.takeWhile isBlank, fun _ => List.mem_takeWhile_imp⟩, List.takeWhile_append_dropWhile.symm⟩

theorem exists_blank_cons {text rest : List Char} {c : Char} (h : skipBlank text = c :: rest) :
    ∃ b : Blank, text = b.chars ++ c :: rest := by
  rw [← h]
  exact exists_blank text

theorem isBlank_iff_of_alike {c d : Char} (h : Alike c d) :
    isBlank c = true ↔ isBlank d = true := by
  refine h.iff (p := fun c => isBlank c = true) fun k blank => ?_
  simp only [isBlank, Bool.or_eq_true, decide_eq_true_eq] at blank
  obtain ((rfl | rfl) | rfl) | rfl := blank <;> decide

theorem isBlank_of_skipBlank {text rest : List Char} {c : Char} (h : skipBlank text = c :: rest) :
    isBlank c = false := by
  have head := List.head?_dropWhile_not isBlank text
  rw [show text.dropWhile isBlank = c :: rest from h] at head
  simpa using head

theorem not_blank_of_alike {c d : Char} (h : Alike c d) (hc : isBlank c = false) :
    isBlank d = false := by
  rw [Bool.eq_false_iff, Ne, ← isBlank_iff_of_alike h, hc]
  decide

theorem agree_skipBlank {x y : List UInt8} {a b : List Char} (h : Agree x y a b)
    (before : x.length < byteLength (skipBlank a)) : Agree x y (skipBlank a) (skipBlank b) := by
  obtain ⟨gap, hgap⟩ := exists_blank a
  rw [hgap] at h
  obtain ⟨b, rfl, agree⟩ := Agree.append gap.chars h (Nat.le_of_lt before)
  cases hskip : skipBlank a with
  | nil =>
    rw [hskip] at before
    exact absurd before (Nat.not_lt_zero _)
  | cons c rest =>
    rw [hskip] at before agree
    obtain ⟨d, later, rfl, alike⟩ := agree.first before
    rw [skipBlank_append, skipBlank_cons (not_blank_of_alike alike (isBlank_of_skipBlank hskip))]
    exact agree

theorem byteLength_skipBlank (a : List Char) : byteLength (skipBlank a) ≤ byteLength a := by
  obtain ⟨gap, hgap⟩ := exists_blank a
  have := congrArg byteLength hgap
  rw [byteLength_append] at this
  omega

end Untyped.Json
