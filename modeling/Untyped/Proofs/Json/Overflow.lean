import Mathlib
import Untyped.Proofs.Json.Underflow

/-! Numbers that are out of range. Scaling fails only near the end of the doubles or beyond it, and
beyond it it does fail, but for what a few roundings may lead back. -/
namespace Untyped

namespace Format

/-- The midpoint behind the last finite double is before the end of the doubles, but not by more
than the roundoff. -/
theorem last_midpoint_bounds :
    (1 - double.roundoff) * 2 ^ 1024 ≤ double.midpoint (double.count - 1) ∧
      double.midpoint (double.count - 1) < 2 ^ 1024 := by
  have last : double.count - 1 + 1 = double.count := by decide
  have stop := double.value_succ (double.count - 1)
  have before := double.midpoint_lt_value (double.count - 1)
  rw [last, double_value_count] at stop before
  refine ⟨?_, before⟩
  have normal := double.fractions_mul_gap_le
    (show double.fractions ≤ double.count - 1 by decide)
  have half := mul_le_mul_of_nonneg_left normal double.roundoff_pos.le
  have unit := double.fractions_mul_roundoff
  have gap := mul_pos double.roundoff_pos (double.gap_pos (double.count - 1))
  rw [midpoint]
  generalize (2 : ℚ) ^ 1024 = top at *
  linear_combination half + gap.le - (double.gap (double.count - 1) / 2) * unit +
    (1 - double.roundoff) * stop

end Format

namespace Json.Numeral
open Binary (Finite)
open Format (double)

section Range

variable {roundings : Nat} {z : Double} {q : ℚ} (h : Nearly roundings z q)

include h

theorem Nearly.le_of_infinite (infinite : z.finite? = none) :
    (1 - double.roundoff) * 2 ^ 1024 ≤ (1 + double.roundoff) ^ roundings * q := by
  obtain ⟨num, den, hden, rfl, close⟩ := h
  have beyond : double.count - 1 < double.nearestRank num den := by
    by_contra within
    have positive : 0 < double.count := by decide
    rw [Binary.nearest, Binary.ofRank, dif_pos (by omega)] at infinite
    cases infinite
  calc (1 - double.roundoff) * 2 ^ 1024 ≤ double.midpoint (double.count - 1) :=
        Format.last_midpoint_bounds.1
    _ ≤ num / den := double.midpoint_le_of_lt_nearestRank hden _ beyond
    _ ≤ (1 + double.roundoff) ^ roundings * q := close.1

theorem Nearly.lt_of_finite {y : Finite .double} (finite : z.finite? = some y) :
    q < (1 + double.roundoff) ^ roundings * 2 ^ 1024 := by
  obtain ⟨num, den, hden, rfl, close⟩ := h
  have within : double.nearestRank num den ≤ double.count - 1 := by
    by_contra beyond
    rw [Binary.nearest, Binary.ofRank, dif_neg (by omega)] at finite
    cases finite
  have factor : 0 < 1 + double.roundoff := by linarith [double.roundoff_pos]
  have before : (num / den : ℚ) < 2 ^ 1024 :=
    calc (num / den : ℚ) ≤ double.midpoint (double.nearestRank num den) :=
          double.le_midpoint_nearestRank hden
      _ ≤ double.midpoint (double.count - 1) := double.midpoint_strictMono.monotone within
      _ < 2 ^ 1024 := Format.last_midpoint_bounds.2
  calc q ≤ (1 + double.roundoff) ^ roundings * (num / den) := close.2
    _ < (1 + double.roundoff) ^ roundings * 2 ^ 1024 := by gcongr

end Range

theorem exists_shrink (n : Nat) {x : Finite .double} (sign : x.negative = false) :
    ∃ y : Finite .double, shrink n (.finite x) = .finite y ∧ y.negative = false := by
  induction n generalizing x with
  | zero => exact ⟨x, rfl, sign⟩
  | succ n ih =>
    rw [shrink]
    split
    next => exact ⟨x, rfl, sign⟩
    next =>
      obtain ⟨y, hy, signY, valueY, _⟩ := exists_powerOfTen (Nat.le_refl 308)
      obtain ⟨_, _, finite, _, _, quotient⟩ :=
        exists_div_finite sign signY (valueY ▸ one_le_rounded_pow_ten 308)
      rw [hy, quotient]
      exact ih rfl

section Significand

variable {s : Nat} {p : Int} (hs : s ≤ 2 ^ 64)

include hs

theorem isSome_scaled_of_neg (down : p < 0) : (scaled (.ofNat .double s) p).isSome := by
  obtain ⟨x, hx, signX, _, _⟩ := exists_ofNat (Binary.double_nearestRank_lt_of_le hs)
  obtain ⟨y, hy, signY⟩ := exists_shrink ((p.natAbs - 1) / 308) signX
  obtain ⟨z, hz, signZ, valueZ, _⟩ := exists_powerOfTen
    (show p.natAbs - 308 * ((p.natAbs - 1) / 308) ≤ 308 by omega)
  obtain ⟨_, _, finite, _, _, quotient⟩ :=
    exists_div_finite signY signZ (valueZ ▸ one_le_rounded_pow_ten _)
  rw [scaled, if_neg (by omega)]
  dsimp only
  rw [hx, hy, hz, quotient]
  rfl

theorem le_of_scaled_none (none : scaled (.ofNat .double s) p = none) :
    (1 - double.roundoff) * 2 ^ 1024 ≤ (1 + double.roundoff) ^ 2 * (s * 10 ^ p) := by
  have up : 0 ≤ p := by
    by_contra down
    have some := isSome_scaled_of_neg (p := p) hs (by omega)
    rw [none] at some
    cases some
  by_cases beyond : 308 < p
  · have positive : 1 ≤ s := by
      by_contra zero
      rw [show s = 0 by omega, scaled_of_zero] at none
      cases none
    have small := roundoff_small
    have unit := double.roundoff_pos
    have power : (10 ^ ((309 : Nat) : Int) : ℚ) ≤ 10 ^ p :=
      zpow_le_zpow_right₀ (by norm_num) (by omega)
    have one : (1 : ℚ) ≤ s := by exact_mod_cast positive
    rw [zpow_natCast] at power
    calc (1 - double.roundoff) * 2 ^ 1024 ≤ 1 * 2 ^ 1024 := by gcongr; linarith
      _ ≤ 1 * (1 * 10 ^ p) := by
        rw [one_mul, one_mul, one_mul]
        exact two_pow_lt_ten_pow.le.trans power
      _ ≤ (1 + double.roundoff) ^ 2 * (s * 10 ^ p) := by
        gcongr
        exact one_le_pow₀ (by linarith)
  · obtain ⟨z, hz, nearly⟩ := exists_nearly hs (by omega) (show p ≤ 308 by omega)
    have close := nearly 1 1 (close_rounded s) (close_rounded _)
    exact close.le_of_infinite (hz.symm.trans none)

theorem lt_of_scaled_some {y : Finite .double} (some : scaled (.ofNat .double s) p = some y) :
    s * 10 ^ p < (1 + double.roundoff) ^ 2 * 2 ^ 1024 := by
  have unit := double.roundoff_pos
  by_cases beyond : 308 < p
  · have zero : s = 0 := by
      by_contra nonzero
      rw [scaled_of_beyond (not_isZero_ofNat (Nat.pos_of_ne_zero nonzero) hs) beyond] at some
      cases some
    rw [zero, Nat.cast_zero, zero_mul]
    positivity
  by_cases once : -308 ≤ p
  · obtain ⟨z, hz, nearly⟩ := exists_nearly hs once (by omega)
    have close := nearly 1 1 (close_rounded s) (close_rounded _)
    exact close.lt_of_finite (hz.symm.trans some)
  · have digits : (s : ℚ) ≤ 2 ^ 64 := by exact_mod_cast hs
    have power : (10 ^ p : ℚ) ≤ 1 := zpow_le_one_of_nonpos₀ (by norm_num) (by omega)
    calc (s * 10 ^ p : ℚ) ≤ 2 ^ 64 * 1 := by gcongr
      _ = 2 ^ 64 := mul_one _
      _ < 2 ^ 1024 := pow_lt_pow_right₀ (by norm_num) (by norm_num)
      _ ≤ (1 + double.roundoff) ^ 2 * 2 ^ 1024 :=
        le_mul_of_one_le_left (by positivity) (one_le_pow₀ (by linarith))

end Significand

variable {n : Numeral}

theorem isSome_toRounded_iff (short : n.power.natAbs < 0x80000000) :
    n.toRounded.toOption.isSome ↔
      (scaled (.ofNat .double n.significand) (n.position + n.power)).isSome := by
  rw [toRounded_of_short short, toFloat]
  cases scaled (.ofNat .double n.significand) (n.position + n.power) <;> rfl

theorem roundoff_bounds :
    (1 - 1 / 2 ^ 51) * (1 + double.roundoff) ^ 3 ≤ 1 - double.roundoff ∧
      (1 + double.roundoff) ^ 3 ≤ 1 + 1 / 2 ^ 51 := by
  rw [Format.double_roundoff]
  norm_num

/-- A number that is out of range is near the end of the doubles or beyond it, unless its exponent
is too long to be read. -/
theorem le_magnitude_of_none (none : n.toRounded.toOption = none) :
    (1 - 1 / 2 ^ 51) * 2 ^ 1024 ≤ n.magnitude ∨ 2 ^ 31 ≤ n.power := by
  obtain short | long := Nat.lt_or_ge n.power.natAbs 0x80000000
  · left
    have absent : scaled (.ofNat .double n.significand) (n.position + n.power) = .none := by
      rw [← Option.not_isSome_iff_eq_none, ← isSome_toRounded_iff short, none]
      exact Bool.false_ne_true
    have far := le_of_scaled_none n.significand_lt.le absent
    have close := n.close_magnitude.1
    have factor : 0 < 1 + double.roundoff := by linarith [double.roundoff_pos]
    refine le_of_mul_le_mul_left ?_ (pow_pos factor 3)
    calc (1 + double.roundoff) ^ 3 * ((1 - 1 / 2 ^ 51) * 2 ^ 1024) =
          (1 - 1 / 2 ^ 51) * (1 + double.roundoff) ^ 3 * 2 ^ 1024 := by
          rw [mul_left_comm, mul_assoc]
      _ ≤ (1 - double.roundoff) * 2 ^ 1024 := by
        gcongr
        exact roundoff_bounds.1
      _ ≤ (1 + double.roundoff) ^ 2 * (n.significand * 10 ^ (n.position + n.power)) := far
      _ ≤ (1 + double.roundoff) ^ 2 * ((1 + double.roundoff) ^ 1 * n.magnitude) := by gcongr
      _ = (1 + double.roundoff) ^ 3 * n.magnitude := by rw [← mul_assoc, ← pow_add]
  · right
    by_contra down
    rw [toRounded_of_long_zero long (.inr (by omega))] at none
    cases none

/-- A number in range is not beyond the end of the doubles, but for three roundings, if its exponent
is not too long to be read. -/
theorem magnitude_lt_of_some (some : n.toRounded.toOption.isSome) (low : -2 ^ 31 < n.power) :
    n.magnitude < (1 + 1 / 2 ^ 51) * 2 ^ 1024 := by
  obtain short | long := Nat.lt_or_ge n.power.natAbs 0x80000000
  · obtain ⟨y, present⟩ := Option.isSome_iff_exists.1 ((isSome_toRounded_iff short).1 some)
    have near := lt_of_scaled_some n.significand_lt.le present
    have close := n.close_magnitude.2
    have factor : 0 < 1 + double.roundoff := by linarith [double.roundoff_pos]
    calc n.magnitude ≤
          (1 + double.roundoff) ^ 1 * (n.significand * 10 ^ (n.position + n.power)) := close
      _ < (1 + double.roundoff) ^ 1 * ((1 + double.roundoff) ^ 2 * 2 ^ 1024) := by gcongr
      _ = (1 + double.roundoff) ^ 3 * 2 ^ 1024 := by rw [← mul_assoc, ← pow_add]
      _ ≤ (1 + 1 / 2 ^ 51) * 2 ^ 1024 := by
        gcongr
        exact roundoff_bounds.2
  · have zero : n.significand = 0 := by
      by_contra nonzero
      have none := toRounded_of_long_large long (not_or.2 ⟨nonzero, by omega⟩)
      rw [none] at some
      cases some
    rw [magnitude, n.significand_eq_zero_iff.1 zero, Nat.cast_zero, zero_mul]
    positivity

end Json.Numeral

end Untyped
