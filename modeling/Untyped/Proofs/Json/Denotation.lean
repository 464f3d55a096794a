import Mathlib
import Untyped.Proofs.Json.Literal
import Untyped.Proofs.Json.Unambiguous
import Untyped.Value.Show

/-! The number that a text denotes: a sign, and a magnitude that is not rounded. Positional texts
and texts with an exponent are compared by it. -/
namespace Untyped.Json

namespace Numeral

def power (n : Numeral) : Int :=
  n.exponent.elim 0 fun e => if e.1 then -Digit.toNat e.2 else Digit.toNat e.2

/-- The magnitude that is written, exactly. -/
def magnitude (n : Numeral) : ℚ :=
  Digit.toNat (n.whole ++ n.fraction) * 10 ^ (n.power - n.fraction.length)

end Numeral

namespace NumberToken

theorem power_numeral (t : NumberToken) :
    t.numeral.power = t.exponent.elim 0 Exponent.toInt := by
  unfold Numeral.power numeral
  cases t.exponent with
  | none => rfl
  | some e => simp [Exponent.toInt]

theorem power_eq (t : NumberToken) : t.power = t.numeral.power - t.fraction.length := by
  rw [power_numeral]
  rfl

theorem magnitude_numeral (t : NumberToken) :
    t.numeral.magnitude = t.significand * 10 ^ t.power := by
  rw [Numeral.magnitude, power_numeral]
  rfl

theorem magnitude_nonneg (t : NumberToken) : 0 ≤ t.numeral.magnitude := by
  rw [magnitude_numeral]
  positivity

theorem notMem_chars {c : Char} (h : Digit.ofChar? c = none) (ds : List Digit) :
    c ∉ Digit.chars ds := by
  intro mem
  obtain ⟨d, _, hd⟩ := List.mem_map.1 mem
  exact Digit.ofChar?_of_ne d h hd

theorem mem_text_iff (t : NumberToken) {c : Char} (h : Digit.ofChar? c = none) (sign : c ≠ '-') :
    c ∈ t.text ↔ c ∈ fractionText t.fraction ∨ c ∈ t.exponent.elim [] Exponent.text := by
  have unsigned : c ∈ t.text ↔ c ∈ t.unsigned := by
    unfold text
    split <;> simp [sign]
  rw [unsigned, NumberToken.unsigned, List.mem_append, List.mem_append]
  exact or_iff_right (notMem_chars h _)

theorem point_mem_text_iff (t : NumberToken) : '.' ∈ t.text ↔ t.fraction ≠ [] := by
  have exponent : '.' ∉ t.exponent.elim [] Exponent.text := by
    cases t.exponent with
    | none => simp
    | some e =>
      have sign : '.' ∉ signText e.sign := by
        cases e.sign with
        | none => simp [signText]
        | some negative => cases negative <;> simp [signText]
      have letter : '.' ≠ if e.upper then 'E' else 'e' := by cases e.upper <;> simp
      simp [Exponent.text, letter, sign, notMem_chars (show Digit.ofChar? '.' = none by decide)]
  rw [t.mem_text_iff (by decide) (by decide), or_iff_left exponent, fractionText]
  split <;> simp_all

theorem letter_mem_text_iff (t : NumberToken) :
    ('e' ∈ t.text ∨ 'E' ∈ t.text) ↔ t.exponent ≠ none := by
  have fraction {c : Char} (h : Digit.ofChar? c = none) (point : c ≠ '.') :
      c ∉ fractionText t.fraction := by
    unfold fractionText
    split <;> simp [point, notMem_chars h]
  rw [t.mem_text_iff (by decide) (by decide), t.mem_text_iff (by decide) (by decide),
    or_iff_right (fraction (by decide) (by decide)),
    or_iff_right (fraction (by decide) (by decide))]
  cases t.exponent with
  | none => simp
  | some e => cases hu : e.upper <;> simp [Exponent.text, hu]

end NumberToken

/-- The text is a number of the sign and the magnitude. -/
def Denotes (text : String) (negative : Bool) (q : ℚ) : Prop :=
  ∃ t : NumberToken, t.text = text.toList ∧ t.negative = negative ∧ t.numeral.magnitude = q

theorem Denotes.unique {text : String} {negative negative' : Bool} {q q' : ℚ}
    (h : Denotes text negative q) (h' : Denotes text negative' q') :
    negative = negative' ∧ q = q' := by
  obtain ⟨t, htext, rfl, rfl⟩ := h
  obtain ⟨u, utext, rfl, rfl⟩ := h'
  have same : t.text ++ [] = u.text ++ [] := by rw [htext, utext]
  have numeral := (NumberToken.numeral_eq_of_text_eq ends_nil ends_nil same).1
  exact ⟨congrArg Numeral.negative numeral, congrArg Numeral.magnitude numeral⟩

theorem exists_token_positional (negative : Bool) {d : Decimal}
    (nonzero : 0 < d.coefficient ∨ d.exponent = 0) :
    ∃ t : NumberToken, t.text = (if negative then '-' :: d.positional else d.positional) ∧
      t.negative = negative ∧ t.numeral.magnitude = d.toRat ∧ t.exponent = none := by
  obtain ⟨first, later, hw⟩ := d.exists_whole
  have lone := d.lone_zero_whole nonzero hw
  refine ⟨⟨negative, first, later, lone, d.fraction, none⟩, ?_, rfl, ?_, rfl⟩
  · apply NumberToken.text_of_unsigned
    rw [d.positional_eq, hw, NumberToken.unsigned, Option.elim_none, List.append_nil]
  · rw [← d.toNat_whole_append_fraction, hw, NumberToken.magnitude_numeral]
    simp [NumberToken.significand, NumberToken.power, div_eq_mul_inv]

/-- The text that is shown of a datum denotes its short decimal, and has no exponent. -/
theorem exists_token_shown {f : Format} (x : Binary.Finite f) :
    ∃ t : NumberToken, t.text = x.write Value.style ∧ t.negative = x.negative ∧
      t.numeral.magnitude = (x.shortest .up).toRat ∧ t.exponent = none :=
  exists_token_positional x.negative (x.shortest_nonzero .up)

theorem LiteralOf.magnitude_numeral {x : Binary.Finite .double} {t : NumberToken}
    (h : LiteralOf x t) : t.numeral.magnitude = (x.shortest .even).toRat := by
  rw [NumberToken.magnitude_numeral, h.toRat_eq]

theorem marked_write (d : Decimal) :
    '.' ∈ d.write Number.style ∨ 'e' ∈ d.write Number.style := by
  rw [Decimal.write]
  split
  next =>
    left
    split
    next => simp
    next fine =>
      have places : d.fraction ≠ [] := by
        have negative : ¬0 ≤ d.exponent := by simpa [Number.style] using fine
        rw [← List.length_pos_iff, d.length_fraction, Decimal.places]
        omega
      simp [d.positional_eq, NumberToken.fractionText, places]
  next =>
    right
    simp [Decimal.scientific]

theorem LiteralOf.marked {x : Binary.Finite .double} {t : NumberToken} (h : LiteralOf x t) :
    t.fraction ≠ [] ∨ t.exponent ≠ none := by
  have within {c : Char} (hc : c ∈ (x.shortest .even).write Number.style) : c ∈ t.text := by
    rw [h.text]
    split <;> simp [hc]
  rw [← t.point_mem_text_iff, ← t.letter_mem_text_iff]
  exact (marked_write (x.shortest .even)).imp within fun hc => .inl (within hc)

end Untyped.Json
