import Mathlib
import Untyped.Proofs.Binary.Nearest

/-! How far roundings lead away. One of them changes a number that is not subnormal by at most the
factor `1 + 1 / (2 * fractions)`; after two of them the rank it is rounded to is at most two off. -/
namespace Untyped.Format

variable (f : Format)

/-- Half a unit in the last place of a significand, relative to the start of its binade. -/
def roundoff : ℚ := 1 / (2 * f.fractions)

theorem fractions_cast_pos : (0 : ℚ) < f.fractions := Nat.cast_pos.2 f.fractions_pos

theorem roundoff_pos : 0 < f.roundoff := by
  have := f.fractions_cast_pos
  rw [roundoff]
  positivity

theorem double_roundoff : double.roundoff = 1 / 2 ^ 53 := by
  rw [roundoff, double_fractions_cast, pow_succ' 2 52]

theorem fractions_mul_roundoff : 2 * f.fractions * f.roundoff = 1 := by
  have := f.fractions_cast_pos
  rw [roundoff]
  field_simp

/-- The numbers are as close as a number and what a run of roundings makes of it. -/
def Close (roundings : Nat) (a b : ℚ) : Prop :=
  a ≤ (1 + f.roundoff) ^ roundings * b ∧ b ≤ (1 + f.roundoff) ^ roundings * a

namespace Close

variable {f : Format} {m n : Nat} {a b c d : ℚ}

theorem of_eq (h : a = b) : f.Close 0 a b := by
  rw [Close, h, pow_zero, one_mul]
  exact ⟨le_refl b, le_refl b⟩

theorem eq (h : f.Close 0 a b) : a = b := by
  rw [Close, pow_zero, one_mul, one_mul] at h
  exact le_antisymm h.1 h.2

theorem trans (hab : f.Close m a b) (hbc : f.Close n b c) : f.Close (m + n) a c := by
  have factor := f.roundoff_pos
  constructor
  · calc a ≤ (1 + f.roundoff) ^ m * b := hab.1
      _ ≤ (1 + f.roundoff) ^ m * ((1 + f.roundoff) ^ n * c) := by gcongr; exact hbc.1
      _ = (1 + f.roundoff) ^ (m + n) * c := by rw [pow_add, mul_assoc]
  · calc c ≤ (1 + f.roundoff) ^ n * b := hbc.2
      _ ≤ (1 + f.roundoff) ^ n * ((1 + f.roundoff) ^ m * a) := by gcongr; exact hab.2
      _ = (1 + f.roundoff) ^ (m + n) * a := by rw [pow_add, mul_left_comm, mul_assoc]

theorem mono (h : f.Close m a b) (le : m ≤ n) (ha : 0 ≤ a) (hb : 0 ≤ b) : f.Close n a b := by
  have factor := f.roundoff_pos
  have more : (1 + f.roundoff) ^ m ≤ (1 + f.roundoff) ^ n := by
    gcongr
    linarith
  exact ⟨h.1.trans (by gcongr), h.2.trans (by gcongr)⟩

/-- The relative error of a run of roundings. -/
theorem abs_sub_le (h : f.Close n a b) (hb : 0 ≤ b) :
    |a - b| ≤ ((1 + f.roundoff) ^ n - 1) * b := by
  have more : 1 ≤ (1 + f.roundoff) ^ n := one_le_pow₀ (by linarith [f.roundoff_pos])
  rw [abs_le]
  refine ⟨?_, by linarith [h.1]⟩
  obtain above | below := le_total b a
  · have := mul_nonneg (sub_nonneg.2 more) hb
    linarith
  · have := mul_le_mul_of_nonneg_left below (sub_nonneg.2 more)
    linarith [h.2]

theorem mul_right (h : f.Close n a b) (hc : 0 ≤ c) : f.Close n (a * c) (b * c) := by
  constructor
  · calc a * c ≤ (1 + f.roundoff) ^ n * b * c := by gcongr; exact h.1
      _ = (1 + f.roundoff) ^ n * (b * c) := mul_assoc _ _ _
  · calc b * c ≤ (1 + f.roundoff) ^ n * a * c := by gcongr; exact h.2
      _ = (1 + f.roundoff) ^ n * (a * c) := mul_assoc _ _ _

theorem inv (h : f.Close n a b) (ha : 0 < a) (hb : 0 < b) : f.Close n a⁻¹ b⁻¹ := by
  constructor
  · rw [← div_eq_mul_inv, le_div_iff₀ hb, inv_mul_le_iff₀ ha, mul_comm a]
    exact h.2
  · rw [← div_eq_mul_inv, le_div_iff₀ ha, inv_mul_le_iff₀ hb, mul_comm b]
    exact h.1

theorem mul (hab : f.Close m a b) (hcd : f.Close n c d) (hb : 0 ≤ b) (hc : 0 ≤ c) :
    f.Close (m + n) (a * c) (b * d) := by
  have first := hab.mul_right hc
  have second := hcd.mul_right hb
  rw [mul_comm c, mul_comm d] at second
  exact first.trans second

theorem div (hab : f.Close m a b) (hcd : f.Close n c d) (hb : 0 ≤ b) (hc : 0 < c) (hd : 0 < d) :
    f.Close (m + n) (a / c) (b / d) := by
  rw [div_eq_mul_inv, div_eq_mul_inv]
  exact hab.mul (hcd.inv hc hd) hb (inv_nonneg.2 hc.le)

end Close

theorem mul_midpoint_lt (rank : Nat) :
    (1 + f.roundoff) ^ 2 * f.midpoint rank < f.midpoint (rank + 2) := by
  have small := f.roundoff_pos
  have whole := f.fractions_mul_roundoff
  have gap := f.gap_pos rank
  have next : f.gap rank ≤ f.gap (rank + 1) := f.gap_mono (by omega)
  have last : f.gap rank ≤ f.gap (rank + 2) := f.gap_mono (by omega)
  have here := f.value_succ rank
  have behind : f.value (rank + 2) = f.value (rank + 1) + f.gap (rank + 1) := f.value_succ _
  have top := mul_le_mul_of_nonneg_left (f.value_succ_le rank)
    (show 0 ≤ 2 * f.roundoff + f.roundoff ^ 2 by positivity)
  have room : (2 * f.roundoff + f.roundoff ^ 2) * (2 * f.fractions * f.gap rank) =
      (2 + f.roundoff) * f.gap rank := by
    linear_combination (2 + f.roundoff) * f.gap rank * whole
  have slack : 0 < f.roundoff ^ 2 * f.gap rank := by positivity
  rw [midpoint, midpoint]
  nlinarith

variable [f.Proper] {num den : Nat} (hden : 0 < den)

include hden

theorem abs_value_nearestRank_sub_le {rank : Nat} (h : (num / den : ℚ) ≤ f.value (rank + 1)) :
    |f.value (f.nearestRank num den) - num / den| ≤ f.gap rank / 2 := by
  have below := f.nearestRank_le_of_le_value hden h
  have upper : (num / den : ℚ) ≤ f.midpoint (f.nearestRank num den) :=
    f.le_midpoint_nearestRank hden
  have lower : ∀ rank < f.nearestRank num den, f.midpoint rank ≤ num / den :=
    f.midpoint_le_of_lt_nearestRank hden
  have nonneg : (0 : ℚ) ≤ num / den := by positivity
  generalize f.nearestRank num den = r at *
  generalize (num / den : ℚ) = q at *
  have gap := f.gap_pos rank
  have above : q - f.value r ≤ f.gap rank / 2 := by
    obtain inside | last := Nat.lt_or_eq_of_le below
    · have := f.gap_mono (Nat.le_of_lt_succ inside)
      rw [midpoint] at upper
      linarith
    · rw [last]
      linarith
  have before : f.value r - q ≤ f.gap rank / 2 := by
    cases r with
    | zero =>
      rw [f.value_zero]
      linarith
    | succ r =>
      have := lower r (Nat.lt_succ_self r)
      have := f.gap_mono (Nat.le_of_succ_le_succ below)
      rw [midpoint] at *
      rw [value_succ]
      linarith
  exact abs_le.2 ⟨by linarith, before⟩

theorem abs_value_nearestRank_sub_le_of_binade {s : Nat} {stop : ℚ}
    (hstop : stop = 2 * f.fractions * (2 ^ s / 2 ^ f.scale)) (h : (num / den : ℚ) ≤ stop) :
    |f.value (f.nearestRank num den) - num / den| ≤ f.roundoff / 2 * stop := by
  have pos := f.fractions_pos
  have last : (s + 1) * f.fractions + (f.fractions - 1) + 1 = (s + 1) * f.fractions + f.fractions := by
    omega
  have behind : f.value ((s + 1) * f.fractions + (f.fractions - 1) + 1) = stop := by
    rw [last, f.value_of_binade s (Nat.le_refl _), hstop]
    push_cast
    ring
  have error := f.abs_value_nearestRank_sub_le hden (h.trans_eq behind.symm)
  rw [f.gap_of_binade s (by omega)] at error
  have unit := f.fractions_mul_roundoff
  refine error.trans_eq ?_
  rw [hstop]
  linear_combination -(2 ^ s / 2 ^ f.scale / 2) * unit

/-- Rounding is close, where the number is not subnormal. -/
theorem close_nearestRank (normal : f.value f.fractions ≤ num / den) :
    f.Close 1 (f.value (f.nearestRank num den)) (num / den) := by
  have notBelow := f.le_nearestRank_of_value_le hden normal
  have upper : (num / den : ℚ) ≤ f.midpoint (f.nearestRank num den) :=
    f.le_midpoint_nearestRank hden
  have lower : ∀ rank < f.nearestRank num den, f.midpoint rank ≤ num / den :=
    f.midpoint_le_of_lt_nearestRank hden
  generalize f.nearestRank num den = r at *
  generalize (num / den : ℚ) = q at *
  have whole := f.fractions_mul_roundoff
  have small := f.roundoff_pos
  -- half a gap is at most the roundoff of the value it follows
  have half {rank : Nat} (h : f.fractions ≤ rank) : f.gap rank / 2 ≤ f.roundoff * f.value rank := by
    have := mul_le_mul_of_nonneg_left (f.fractions_mul_gap_le h) small.le
    linear_combination this - (f.gap rank / 2) * whole
  rw [Close, pow_one]
  constructor
  · obtain same | more := Nat.eq_or_lt_of_le notBelow
    · rw [← same]
      have := f.value_nonneg f.fractions
      nlinarith
    · have previous := f.value_succ (r - 1)
      rw [Nat.sub_add_cancel (by omega)] at previous
      have beyond := lower (r - 1) (by omega)
      rw [midpoint] at beyond
      have := half (show f.fractions ≤ r - 1 by omega)
      have := f.gap_pos (r - 1)
      have : f.roundoff * f.value (r - 1) ≤ f.roundoff * q := by
        gcongr
        linarith
      linarith
  · rw [midpoint] at upper
    have := half notBelow
    linarith

variable {f} in
omit hden in
theorem RoundsTo.close {q : ℚ} {rank : Nat} (h : f.RoundsTo q rank)
    (normal : f.value f.fractions ≤ q) : f.Close 1 (f.value rank) q := by
  have nonneg := (f.value_nonneg f.fractions).trans normal
  have quotient := Binary.natAbs_num_div_den nonneg
  have close := f.close_nearestRank q.den_pos (normal.trans_eq quotient.symm)
  rwa [quotient, Binary.nearestRank_of_roundsTo nonneg h] at close

/-- Where two roundings lie between two numbers, their ranks are at most two apart. -/
theorem nearestRank_of_close {q : ℚ} {rank : Nat} (rounds : f.RoundsTo q rank)
    (close : f.Close 2 (num / den) q) :
    f.nearestRank num den ≤ rank + 2 ∧ rank ≤ f.nearestRank num den + 2 := by
  have factor : 0 ≤ (1 + f.roundoff) ^ 2 := by positivity
  constructor
  · apply f.nearestRank_le_of_lt hden
    calc (num / den : ℚ) ≤ (1 + f.roundoff) ^ 2 * q := close.1
      _ ≤ (1 + f.roundoff) ^ 2 * f.midpoint rank := by
        gcongr
        exact rounds.le_midpoint
      _ < f.midpoint (rank + 2) := f.mul_midpoint_lt rank
  · obtain rfl | positive := Nat.eq_zero_or_pos rank
    · exact Nat.zero_le _
    · have before : f.midpoint (rank - 1) < f.midpoint (f.nearestRank num den + 2) := by
        calc f.midpoint (rank - 1) ≤ q := rounds.midpoint_le positive
          _ ≤ (1 + f.roundoff) ^ 2 * (num / den) := close.2
          _ ≤ (1 + f.roundoff) ^ 2 * f.midpoint (f.nearestRank num den) := by
            gcongr
            exact f.le_midpoint_nearestRank hden
          _ < f.midpoint (f.nearestRank num den + 2) := f.mul_midpoint_lt _
      have := f.midpoint_strictMono.lt_iff_lt.1 before
      omega

end Untyped.Format
