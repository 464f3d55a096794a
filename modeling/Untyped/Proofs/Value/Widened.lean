import Mathlib
import Untyped.Proofs.Decimal.Grid
import Untyped.Proofs.Value.Branch

/-! The double that stands for a single in JSON: the one nearest to the single's short decimal. It
is far from subnormal, and so close to the decimal that it has the same one. -/
namespace Untyped.Binary
open Format (double single)

/-- The text of every single is read as a double. -/
theorem isSome_read?_write (x : Single) : (read? .double (x.write Value.style)).isSome := by
  cases x with
  | nan => rfl
  | infinite negative => cases negative <;> rfl
  | finite x => rw [write_finite, read?_positional]; rfl

section Widened

variable {x : Finite .single} {y : Finite .double} (widened : widenByText (.finite x) = .finite y)

include widened

theorem roundsTo_of_widenByText :
    y.negative = x.negative ∧ double.RoundsTo (x.shortest .up).toRat y.rank := by
  have nearest := widened
  rw [widenByText_finite] at nearest
  obtain ⟨sign, rounds⟩ := roundsTo_of_nearest (Nat.pow_pos (by omega)) nearest
  rw [Nat.cast_pow, Nat.cast_ofNat, (x.shortest .up).toNat_whole_append_fraction] at rounds
  exact ⟨sign, rounds⟩

omit widened in
theorem value_fractions_le_shortest (positive : 0 < x.rank) :
    double.value double.fractions ≤ (x.shortest .up).toRat := by
  have scale : double.scale = 52 + 1022 := by decide
  have finer : single.scale + 1 ≤ 1022 := by decide
  calc double.value double.fractions = 1 / 2 ^ 1022 := by
        rw [Format.value_fractions, scale, Format.double_fractions_cast, pow_add,
          div_mul_cancel_left₀ (by positivity), one_div]
    _ ≤ 1 / 2 ^ (single.scale + 1) := one_div_pow_le_one_div_pow_of_le one_le_two finer
    _ = single.midpoint 0 := single.midpoint_zero.symm
    _ ≤ (x.shortest .up).toRat := x.midpoint_zero_le_shortest .up positive

theorem close_widenByText (positive : 0 < x.rank) :
    double.Close 1 (double.value y.rank) (x.shortest .up).toRat :=
  (roundsTo_of_widenByText widened).2.close (value_fractions_le_shortest positive)

theorem fractions_le_of_widenByText (positive : 0 < x.rank) : double.fractions ≤ y.rank :=
  (roundsTo_of_widenByText widened).2.le_rank (value_fractions_le_shortest positive)

theorem gap_lt_of_widenByText (positive : 0 < x.rank) :
    double.gap y.rank < 10 ^ (x.shortest .up).exponent := by
  have unit : (0 : ℚ) < 10 ^ (x.shortest .up).exponent := by positivity
  have close := (close_widenByText widened positive).1
  have wide := double.fractions_mul_gap_le (fractions_le_of_widenByText widened positive)
  have few : ((x.shortest .up).coefficient : ℚ) ≤ 40 * 2 ^ 23 := by
    exact_mod_cast x.coefficient_shortest_le .up
  rw [pow_one, Format.double_roundoff, Decimal.toRat] at close
  rw [Format.double_fractions_cast] at wide
  have most := mul_le_mul_of_nonneg_right few unit.le
  have gap := double.gap_pos y.rank
  nlinarith

/-- The double has the decimal of the single, whichever rule for ties is used. -/
theorem shortest_widenByText (tie : Tie) :
    (y.shortest tie).toRat = (x.shortest .up).toRat := by
  obtain ⟨_, rounds⟩ := roundsTo_of_widenByText widened
  obtain zero | positive := Nat.eq_zero_or_pos x.rank
  · have nothing : (x.shortest .up).toRat = 0 := by
      rw [x.shortest_zero .up zero, Decimal.toRat, Nat.cast_zero, zero_mul]
    have rank := rounds.rank_le (nothing.trans double.value_zero.symm).le
    rw [nothing, y.shortest_zero tie (Nat.le_zero.1 rank), Decimal.toRat, Nat.cast_zero, zero_mul]
  · have normal := fractions_le_of_widenByText widened positive
    have some := double.fractions_pos
    exact y.toRat_shortest_eq tie (by omega) rounds (gap_lt_of_widenByText widened positive)

end Widened

end Untyped.Binary
