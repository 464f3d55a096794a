import Mathlib
import Untyped.Proofs.Json.Denotation

/-! The exponent of a number. One that 31 bits hold scales the significand; beyond them a number is
zero if its digits are or the exponent is negative, and out of range otherwise. -/
namespace Untyped.Json

namespace Numeral

variable {n : Numeral}

theorem exists_exponent_of_power (h : n.power ≠ 0) :
    ∃ digits, n.exponent = some (decide (n.power < 0), digits) ∧
      Digit.toNat digits = n.power.natAbs := by
  unfold power at *
  cases he : n.exponent with
  | none =>
    rw [he] at h
    exact absurd rfl h
  | some e =>
    obtain ⟨down, digits⟩ := e
    rw [he] at h
    rw [Option.elim_some] at *
    cases down with
    | false =>
      rw [if_neg Bool.false_ne_true] at *
      refine ⟨digits, ?_, (Int.natAbs_natCast _).symm⟩
      rw [decide_eq_false (by omega)]
    | true =>
      rw [if_pos rfl] at *
      refine ⟨digits, ?_, by rw [Int.natAbs_neg, Int.natAbs_natCast]⟩
      rw [decide_eq_true (by omega)]

theorem toRounded_of_short (h : n.power.natAbs < 0x80000000) :
    n.toRounded = n.toFloat (n.position + n.power) := by
  unfold power at *
  rw [toRounded]
  cases he : n.exponent with
  | none => rw [Option.elim_none, Int.add_zero]
  | some e =>
    obtain ⟨down, digits⟩ := e
    rw [he] at h
    rw [Option.elim_some] at *
    have read : readPower 0 digits = .ok (Digit.toNat digits) := by
      apply readPower_of_lt
      change Digit.toNat digits < _
      cases down <;> simpa using h
    dsimp only
    rw [read]
    cases down <;> rfl

section Long

variable (h : 0x80000000 ≤ n.power.natAbs)

include h

theorem toRounded_of_long : ∃ unread, n.toRounded =
    if n.significand = 0 ∨ n.power < 0 then .ok (.signedZero n.negative) else .error unread := by
  obtain ⟨digits, exponent, value⟩ := exists_exponent_of_power (n := n) (by omega)
  have large : 0x80000000 ≤ Digit.append 0 digits := by
    change _ ≤ Digit.toNat digits
    omega
  obtain ⟨unread, read⟩ := readPower_of_le (by decide) large
  refine ⟨unread, ?_⟩
  rw [toRounded, exponent]
  dsimp only
  rw [read]
  simp only [decide_eq_true_eq]

theorem toRounded_of_long_zero (zero : n.significand = 0 ∨ n.power < 0) :
    n.toRounded = .ok (.signedZero n.negative) := by
  obtain ⟨unread, rounded⟩ := toRounded_of_long h
  rwa [if_pos zero] at rounded

theorem toRounded_of_long_large (large : ¬(n.significand = 0 ∨ n.power < 0)) :
    n.toRounded.toOption = none := by
  obtain ⟨unread, rounded⟩ := toRounded_of_long h
  rw [rounded, if_neg large]
  rfl

end Long

end Numeral

end Untyped.Json
