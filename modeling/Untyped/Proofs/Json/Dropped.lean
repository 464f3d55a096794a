import Mathlib
import Untyped.Proofs.Binary.Closeness
import Untyped.Proofs.Json.Denotation

/-! Digits that do not fit the significand. It holds the first digits up to one that does not fit,
and then it is so large that what the others add is less than the roundoff. -/
namespace Untyped.Json.Numeral
open Format (double)

/-- A run of digits is split where one no longer fits. -/
theorem gather_spec {acc : Nat} (fits : acc < 0x10000000000000000) (ds : List Digit) :
    ∃ taken, ds = taken ++ (gather acc ds).2 ∧ (gather acc ds).1 = Digit.append acc taken ∧
      (gather acc ds).1 < 0x10000000000000000 ∧
      ((gather acc ds).2 ≠ [] → 10 ^ 18 ≤ (gather acc ds).1) := by
  induction ds generalizing acc with
  | nil => exact ⟨[], rfl, rfl, fits, fun h => absurd rfl h⟩
  | cons d ds ih =>
    rw [gather]
    split
    next next_fits =>
      obtain ⟨taken, split, value, small, large⟩ := ih next_fits
      exact ⟨d :: taken, congrArg (List.cons d) split, value, small, large⟩
    next beyond =>
      have digit := d.isLt
      exact ⟨[], rfl, rfl, fits, fun _ => by omega⟩

theorem append_between (m : Nat) (ds : List Digit) (p : Int) :
    (m * 10 ^ p : ℚ) ≤ Digit.append m ds * 10 ^ (p - ds.length) ∧
      (Digit.append m ds * 10 ^ (p - ds.length) : ℚ) ≤ (m + 1) * 10 ^ p := by
  have unit : (0 : ℚ) < 10 ^ (p - ds.length) := by positivity
  have power : (10 ^ p : ℚ) = 10 ^ ds.length * 10 ^ (p - ds.length) := by
    rw [← zpow_natCast, ← zpow_add₀ (by norm_num)]
    congr 1
    omega
  have value := Digit.append_eq m ds
  have few := Digit.toNat_lt ds
  have low : (m * 10 ^ ds.length : ℚ) ≤ Digit.append m ds := by
    exact_mod_cast (by omega : m * 10 ^ ds.length ≤ Digit.append m ds)
  have high : (Digit.append m ds : ℚ) ≤ (m + 1) * 10 ^ ds.length := by
    exact_mod_cast (by rw [Nat.succ_mul]; omega : Digit.append m ds ≤ (m + 1) * 10 ^ ds.length)
  rw [power, ← mul_assoc, ← mul_assoc]
  exact ⟨mul_le_mul_of_nonneg_right low unit.le, mul_le_mul_of_nonneg_right high unit.le⟩

theorem close_of_between {m : Nat} (large : 10 ^ 18 ≤ m) {unit x y : ℚ} (nonneg : 0 ≤ unit)
    (hx : m * unit ≤ x ∧ x ≤ (m + 1) * unit) (hy : m * unit ≤ y ∧ y ≤ (m + 1) * unit) :
    double.Close 1 x y := by
  have small : 1 ≤ double.roundoff * m := by
    have : (10 ^ 18 : ℚ) ≤ m := by exact_mod_cast large
    rw [Format.double_roundoff, one_div, ← div_eq_inv_mul, le_div_iff₀ (by positivity)]
    exact le_trans (by norm_num) this
  have step : (m + 1) * unit ≤ (1 + double.roundoff) * (m * unit) := by
    have := mul_le_mul_of_nonneg_right small nonneg
    linarith
  have factor : 0 ≤ 1 + double.roundoff := by linarith [double.roundoff_pos]
  rw [Format.Close, pow_one]
  exact ⟨hx.2.trans (step.trans (mul_le_mul_of_nonneg_left hy.1 factor)),
    hy.2.trans (step.trans (mul_le_mul_of_nonneg_left hx.1 factor))⟩

variable (n : Numeral)

def digitsValue : ℚ := Digit.toNat (n.whole ++ n.fraction) * 10 ^ (-n.fraction.length : Int)

theorem magnitude_eq : n.magnitude = n.digitsValue * 10 ^ n.power := by
  rw [magnitude, digitsValue, mul_assoc, ← zpow_add₀ (by norm_num), sub_eq_neg_add]

theorem significand_lt : n.significand < 0x10000000000000000 := by
  obtain ⟨_, _, _, fits, _⟩ := gather_spec (show 0 < 0x10000000000000000 by decide) n.whole
  obtain ⟨_, _, _, fits, _⟩ := gather_spec fits n.fraction
  exact fits

/-- The significand stands for all the digits up to one roundoff, though a digit of the fraction may
have been taken after one before the point was not. -/
theorem close_significand : double.Close 1 (n.significand * 10 ^ n.position) n.digitsValue := by
  obtain ⟨wholeTaken, whole, wholeValue, wholeFits, wholeLarge⟩ :=
    gather_spec (show 0 < 0x10000000000000000 by decide) n.whole
  obtain ⟨taken, fraction, value, fits, large⟩ := gather_spec wholeFits n.fraction
  change n.whole = wholeTaken ++ n.wholePart.2 at whole
  change n.wholePart.1 = Digit.toNat wholeTaken at wholeValue
  change n.fraction = taken ++ n.mantissa.2 at fraction
  change n.significand = Digit.append n.wholePart.1 taken at value
  change n.mantissa.2 ≠ [] → 10 ^ 18 ≤ n.significand at large
  have lengths : n.fraction.length = taken.length + n.mantissa.2.length := by
    conv_lhs => rw [fraction, List.length_append]
  have position : n.position = n.wholePart.2.length - taken.length := by
    rw [Numeral.position, lengths, Nat.add_sub_cancel]
  -- all the digits are those taken before the point and the ones behind them
  have digits : Digit.toNat (n.whole ++ n.fraction) =
      Digit.append n.wholePart.1 (n.wholePart.2 ++ n.fraction) := by
    conv_lhs => rw [whole, List.append_assoc, Digit.toNat, Digit.append_append]
    rw [wholeValue, Digit.toNat]
  by_cases all : n.wholePart.2 = []
  · rw [all, List.nil_append, fraction, Digit.append_append, ← value] at digits
    rw [all, List.length_nil, Nat.cast_zero, zero_sub] at position
    have behind := append_between n.significand n.mantissa.2 (-taken.length)
    have place : (-n.fraction.length : Int) = -taken.length - n.mantissa.2.length := by
      rw [lengths]
      push_cast
      ring
    rw [digitsValue, fraction, digits, ← fraction, position, place]
    by_cases none : n.mantissa.2 = []
    · rw [none, List.length_nil, Nat.cast_zero, sub_zero]
      exact (Format.Close.of_eq rfl).mono (Nat.zero_le 1) (by positivity) (by positivity)
    · have unit : (0 : ℚ) ≤ 10 ^ (-taken.length : Int) := by positivity
      have last : (n.significand * 10 ^ (-taken.length : Int) : ℚ) ≤
          (n.significand + 1) * 10 ^ (-taken.length : Int) := by linarith
      exact close_of_between (large none) unit ⟨le_refl _, last⟩ behind
  · have mine := append_between n.wholePart.1 taken n.wholePart.2.length
    have exact := append_between n.wholePart.1 (n.wholePart.2 ++ n.fraction) n.wholePart.2.length
    have place : (n.wholePart.2.length - (n.wholePart.2 ++ n.fraction).length : Int) =
        -n.fraction.length := by
      rw [List.length_append]
      push_cast
      ring
    rw [place, ← digits] at exact
    rw [← position, ← value] at mine
    exact close_of_between (wholeLarge all) (by positivity) mine exact

/-- The significand is scaled to nearly what is written. -/
theorem close_magnitude :
    double.Close 1 (n.significand * 10 ^ (n.position + n.power)) n.magnitude := by
  rw [n.magnitude_eq, zpow_add₀ (by norm_num), ← mul_assoc]
  exact n.close_significand.mul_right (by positivity)

theorem significand_eq_zero_iff :
    n.significand = 0 ↔ Digit.toNat (n.whole ++ n.fraction) = 0 := by
  have close := n.close_significand
  have unit : (0 : ℚ) < 10 ^ n.position := by positivity
  have place : (0 : ℚ) < 10 ^ (-n.fraction.length : Int) := by positivity
  rw [Format.Close, digitsValue] at close
  constructor
  · intro zero
    have most := close.2
    rw [zero, Nat.cast_zero, zero_mul, mul_zero] at most
    have := nonpos_of_mul_nonpos_left most place
    exact_mod_cast le_antisymm this (Nat.cast_nonneg _)
  · intro zero
    have most := close.1
    rw [zero, Nat.cast_zero, zero_mul, mul_zero] at most
    have := nonpos_of_mul_nonpos_left most unit
    exact_mod_cast le_antisymm this (Nat.cast_nonneg _)

end Untyped.Json.Numeral
