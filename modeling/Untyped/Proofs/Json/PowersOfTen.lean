import Mathlib
import Untyped.Json.Numeral
import Untyped.Proofs.Binary.Closeness

/-! Natural numbers and powers of ten as they are in doubles, and the quotient of one by the
greatest of these powers. -/
namespace Untyped.Json.Numeral
open Binary (Finite)
open Format (double)

def rounded (n : Nat) : ℚ := double.value (double.nearestRank n 1)

theorem rounded_eq_of_value {n rank : Nat} (h : double.value rank = n) : rounded n = n := by
  have same : ((n : Nat) / (1 : Nat) : ℚ) = double.value rank := by rw [h, Nat.cast_one, div_one]
  rw [rounded, double.nearestRank_of_eq_value Nat.one_pos same, h]

theorem rounded_of_le {n : Nat} (h : n ≤ 2 ^ 53) : rounded n = n := by
  obtain ⟨rank, hrank⟩ := double.exists_value_eq (show n ≤ 2 * double.fractions from h) 0
  exact rounded_eq_of_value (by rw [hrank, pow_zero, mul_one])

theorem rounded_pow_ten {k : Nat} (h : k ≤ 22) : rounded (10 ^ k) = (10 ^ k : Nat) := by
  have most : 5 ^ k ≤ 2 * double.fractions :=
    (Nat.pow_le_pow_right (by omega) h).trans (by decide)
  obtain ⟨rank, hrank⟩ := double.exists_value_eq most k
  have value : double.value rank = (10 ^ k : Nat) := by
    rw [hrank]
    push_cast
    rw [← mul_pow]
    norm_num
  exact rounded_eq_of_value value

theorem one_le_rounded_pow_ten (k : Nat) : 1 ≤ rounded (10 ^ k) := by
  have one : rounded 1 = (1 : Nat) := rounded_of_le (by decide)
  have positive : 1 ≤ 10 ^ k := Nat.pow_pos (by omega)
  calc (1 : ℚ) = rounded 1 := by rw [one, Nat.cast_one]
    _ ≤ rounded (10 ^ k) := double.value_strictMono.monotone (double.nearestRank_one_mono positive)

theorem close_rounded (n : Nat) : double.Close 1 (rounded n) n := by
  obtain rfl | positive := Nat.eq_zero_or_pos n
  · rw [rounded_of_le (Nat.zero_le _)]
    exact (Format.Close.of_eq rfl).mono (by omega) (by simp) (by simp)
  · have normal : double.value double.fractions ≤ (n / (1 : Nat) : ℚ) := by
      rw [Nat.cast_one, div_one]
      exact double.value_fractions_le_one.trans (Nat.one_le_cast.2 positive)
    have close := double.close_nearestRank Nat.one_pos normal
    rwa [Nat.cast_one, div_one] at close

/-- The power of ten that is divided by first where the exponent is too low for any double. -/
def greatest : ℚ := rounded (10 ^ 308)

theorem nearestRank_greatest :
    double.nearestRank (10 ^ 308) 1 = (2045 + 1) * double.fractions + 506821272651936 := by
  decide +kernel

theorem greatest_eq : greatest = 5010420900022432 * 2 ^ 971 := by
  have size : double.fractions + 506821272651936 = 5010420900022432 := by decide
  have spacing : (2 : ℚ) ^ 2045 / 2 ^ double.scale = 2 ^ 971 := by
    rw [div_eq_iff double.scale_pos.ne', ← pow_add]
    rfl
  rw [greatest, rounded, nearestRank_greatest, double.value_of_binade 2045 (by decide), size,
    spacing, Nat.cast_ofNat]

theorem greatest_bounds :
    10 ^ 308 ≤ 5010420900022432 * 2 ^ 971 ∧
      20 * double.fractions * (5010420900022432 * 2 ^ 971) ≤
        (20 * double.fractions + 1) * 10 ^ 308 := by
  decide +kernel

theorem le_greatest : 10 ^ 308 ≤ greatest := by
  rw [greatest_eq]
  exact_mod_cast greatest_bounds.1

theorem greatest_le : greatest ≤ (1 + double.roundoff / 10) * 10 ^ 308 := by
  have scaled : 20 * double.fractions * greatest ≤ (20 * double.fractions + 1) * 10 ^ 308 := by
    rw [greatest_eq]
    exact_mod_cast greatest_bounds.2
  have unit := double.fractions_mul_roundoff
  have small := double.roundoff_pos
  generalize (10 ^ 308 : ℚ) = power at *
  calc greatest = double.roundoff / 10 * (20 * double.fractions * greatest) := by
        linear_combination -greatest * unit
    _ ≤ double.roundoff / 10 * ((20 * double.fractions + 1) * power) := by gcongr
    _ = (1 + double.roundoff / 10) * power := by linear_combination power * unit

def significandOfGreatest : ℚ := 5010420900022432 / 2 ^ 52

theorem greatest_eq_mul : greatest = significandOfGreatest * 2 ^ 1023 := by
  have split : (2 : ℚ) ^ 1023 = 2 ^ 52 * 2 ^ 971 := pow_add 2 52 971
  rw [greatest_eq, significandOfGreatest, split, ← mul_assoc, div_mul_cancel₀ _ (by norm_num)]

theorem value_fractions_mul_greatest : double.value double.fractions * greatest ≤ 5 / 2 := by
  have whole : (double.fractions : ℚ) * 2 ^ 1023 = 2 * 2 ^ double.scale := by
    rw [Format.double_fractions_cast, ← pow_add, ← pow_succ']
    rfl
  calc double.value double.fractions * greatest =
        significandOfGreatest * (double.fractions * 2 ^ 1023) / 2 ^ double.scale := by
        rw [Format.value_fractions, greatest_eq_mul, div_mul_eq_mul_div, mul_left_comm]
    _ = significandOfGreatest * 2 := by
      rw [whole, ← mul_assoc, mul_div_assoc, div_self double.scale_pos.ne', mul_one]
    _ ≤ 5 / 2 := by
      rw [significandOfGreatest]
      norm_num

theorem roundoff_small : double.roundoff ≤ 1 / 1000 := by
  rw [Format.double_roundoff]
  norm_num

theorem abs_rounded_sub_le {s j : Nat} (h : s < 2 ^ (j + 1)) :
    |rounded s - s| ≤ double.roundoff * 2 ^ j := by
  have stop : (2 : ℚ) ^ (j + 1) =
      2 * double.fractions * (2 ^ (j + 1022) / 2 ^ double.scale) := by
    have scale : (2 : ℚ) ^ double.scale = 2 ^ 52 * 2 ^ 1022 := pow_add 2 52 1022
    rw [Format.double_fractions_cast, scale, pow_add 2 j 1022]
    field_simp
    ring
  have bound : (s / (1 : Nat) : ℚ) ≤ 2 ^ (j + 1) := by
    rw [Nat.cast_one, div_one]
    exact_mod_cast h.le
  have error := double.abs_value_nearestRank_sub_le_of_binade Nat.one_pos stop bound
  rw [Nat.cast_one, div_one] at error
  refine error.trans_eq ?_
  rw [pow_succ]
  ring

theorem exists_ofNat {n : Nat} (h : double.nearestRank n 1 < double.count) :
    ∃ x : Finite .double, Binary.ofNat .double n = .finite x ∧ x.negative = false ∧
      double.value x.rank = rounded n ∧ x.rank = double.nearestRank n 1 :=
  ⟨⟨false, _, h⟩, Binary.nearest_of_lt h, rfl, rfl, rfl⟩

theorem not_isZero_ofNat {n : Nat} (positive : 0 < n) (h : n ≤ 2 ^ 64) :
    ¬(Binary.ofNat .double n).isZero := by
  obtain ⟨x, hx, _, _, rank⟩ := exists_ofNat (Binary.double_nearestRank_lt_of_le h)
  have := Binary.double_nearestRank_pos positive
  rw [hx, Binary.isZero, Finite.isZero, beq_iff_eq, rank]
  omega

theorem nearestRank_pow_lt {k n : Nat} (h : k ≤ n)
    (finite : double.nearestRank (10 ^ n) 1 < double.count) :
    double.nearestRank (10 ^ k) 1 < double.count := by
  have power : 10 ^ k ≤ 10 ^ n := Nat.pow_le_pow_right (by omega) h
  exact Nat.lt_of_le_of_lt (double.nearestRank_one_mono power) finite

theorem exists_powerOfTen {k : Nat} (h : k ≤ 308) :
    ∃ y : Finite .double, powerOfTen k = .finite y ∧ y.negative = false ∧
      double.value y.rank = rounded (10 ^ k) ∧ 0 < y.rank := by
  have most : double.nearestRank (10 ^ 308) 1 < double.count := by
    rw [nearestRank_greatest]
    decide
  obtain ⟨y, hy, sign, value, rank⟩ := exists_ofNat (nearestRank_pow_lt h most)
  refine ⟨y, hy, sign, value, ?_⟩
  rw [rank]
  exact Binary.double_nearestRank_pos (Nat.pow_pos (by omega))

section Quotient

variable {s num den : Nat} (hden : 0 < den) (quotient : (num / den : ℚ) = rounded s / greatest)

include hden quotient

theorem close_nearestRank_div_greatest (h : 3 ≤ s) :
    double.Close 1 (double.value (double.nearestRank num den)) (rounded s / greatest) := by
  have positive : 0 < greatest := lt_of_lt_of_le (by positivity) le_greatest
  have least := value_fractions_mul_greatest
  have small := roundoff_small
  have above : (3 : ℚ) ≤ s := by exact_mod_cast h
  have close := (close_rounded s).2
  rw [pow_one] at close
  have := double.value_nonneg (double.nearestRank s 1)
  have normal : double.value double.fractions ≤ num / den := by
    rw [quotient, le_div_iff₀ positive]
    change 0 ≤ rounded s at this
    nlinarith
  rw [← quotient]
  exact double.close_nearestRank hden normal

/-- Before the significand of the power the quotient is in an earlier binade, and its error half as
large. -/
theorem abs_value_sub_le_of_le {j : Nat} (hj : 53 ≤ j)
    (h : (s : ℚ) ≤ significandOfGreatest * 2 ^ j) :
    |double.value (double.nearestRank num den) - rounded s / greatest| ≤
      double.roundoff / 2 * (2 ^ j / 2 ^ 1023) := by
  have positive : 0 < greatest := lt_of_lt_of_le (by positivity) le_greatest
  obtain ⟨i, rfl⟩ := Nat.exists_eq_add_of_le hj
  obtain ⟨rank, hrank⟩ := double.exists_value_eq (m := 5010420900022432) (by decide) (i + 1)
  have significand : significandOfGreatest * 2 ^ (53 + i) = double.value rank := by
    rw [hrank, significandOfGreatest, Nat.cast_ofNat]
    ring
  have below : rounded s ≤ significandOfGreatest * 2 ^ (53 + i) := by
    rw [significand]
    apply double.value_strictMono.monotone
    apply double.nearestRank_le_of_le_value Nat.one_pos
    rwa [Nat.cast_one, div_one, ← significand]
  have stop : (2 : ℚ) ^ (53 + i) / 2 ^ 1023 =
      2 * double.fractions * (2 ^ (i + 51) / 2 ^ double.scale) := by
    have scale : (2 : ℚ) ^ double.scale = 2 ^ 51 * 2 ^ 1023 := pow_add 2 51 1023
    rw [Format.double_fractions_cast, scale, pow_add 2 53 i, pow_add 2 i 51]
    field_simp
  rw [← quotient]
  apply double.abs_value_nearestRank_sub_le_of_binade hden stop
  rw [quotient, div_le_div_iff₀ positive (by positivity)]
  calc rounded s * 2 ^ 1023 ≤ significandOfGreatest * 2 ^ (53 + i) * 2 ^ 1023 := by gcongr
    _ = 2 ^ (53 + i) * greatest := by
      rw [greatest_eq_mul, mul_right_comm, mul_comm]

/-- Where the significand has to be rounded itself, its error and that of the quotient are not both
as large as they may be: one of the two numbers is not at the start of its binade. What is left over
makes up for the error of the power. -/
theorem le_mul_of_rounded (h : 2 ^ 53 < s) :
    (1 + double.roundoff / 10) * s ≤
      (1 + double.roundoff) ^ 2 * (double.value (double.nearestRank num den) * greatest) := by
  have small := roundoff_small
  have unit := double.roundoff_pos
  have positive : 0 < greatest := lt_of_lt_of_le (by positivity) le_greatest
  have hj : 53 ≤ s.log2 := (Nat.le_log2 (by omega)).2 h.le
  have start : (2 : ℚ) ^ s.log2 ≤ s := by exact_mod_cast Nat.log2_self_le (by omega)
  have error := (abs_le.1 (abs_rounded_sub_le (Nat.lt_log2_self (n := s)))).1
  have close := (close_nearestRank_div_greatest hden quotient (by omega)).2
  have early := abs_value_sub_le_of_le hden quotient hj
  have significand := greatest_eq_mul
  have t_pos : (0 : ℚ) < 2 ^ s.log2 := by positivity
  have top_pos : (0 : ℚ) < 2 ^ 1023 := by positivity
  have between : (1.1125 : ℚ) ≤ significandOfGreatest ∧ significandOfGreatest ≤ 1.2 := by
    rw [significandOfGreatest]
    norm_num
  rw [pow_one, div_le_iff₀ positive] at close
  generalize double.value (double.nearestRank num den) = b at *
  generalize (2 : ℚ) ^ s.log2 = t at *
  generalize (2 : ℚ) ^ 1023 = top at *
  generalize double.roundoff = u at *
  by_cases low : (s : ℚ) ≤ significandOfGreatest * t
  · -- the quotient is near the end of a binade
    have product : rounded s - u / 2 * (significandOfGreatest * t) ≤ b * greatest := by
      have cancel : rounded s / greatest * greatest = rounded s := div_mul_cancel₀ _ positive.ne'
      have shift : u / 2 * (t / top) * greatest = u / 2 * (significandOfGreatest * t) := by
        rw [significand]
        field_simp
      have := mul_le_mul_of_nonneg_right (abs_le.1 (early low)).1 positive.le
      linarith
    have both : (1 - 1.6 * u) * s ≤ b * greatest := by
      have : significandOfGreatest * t ≤ 1.2 * s := by gcongr; exact between.2
      have := mul_le_mul_of_nonneg_left start unit.le
      nlinarith
    have room : 1 + u / 10 ≤ (1 + u) ^ 2 * (1 - 1.6 * u) := by
      have : 0 ≤ u * (0.3 - 2.2 * u - 1.6 * u ^ 2) := mul_nonneg unit.le (by nlinarith)
      linear_combination this
    calc (1 + u / 10) * s ≤ (1 + u) ^ 2 * (1 - 1.6 * u) * s := by gcongr
      _ = (1 + u) ^ 2 * ((1 - 1.6 * u) * s) := mul_assoc _ _ _
      _ ≤ (1 + u) ^ 2 * (b * greatest) := by gcongr
  · -- the significand is beyond the start of its binade
    have far : t ≤ 0.899 * s := by
      have := mul_le_mul_of_nonneg_right between.1 t_pos.le
      linarith
    have both : (1 - 0.899 * u) * s ≤ (1 + u) * (b * greatest) := by
      have := mul_le_mul_of_nonneg_left far unit.le
      linarith
    have room : 1 + u / 10 ≤ (1 + u) * (1 - 0.899 * u) := by
      have : 0 ≤ u * (0.001 - 0.899 * u) := mul_nonneg unit.le (by linarith)
      linear_combination this
    calc (1 + u / 10) * s ≤ (1 + u) * (1 - 0.899 * u) * s := by gcongr
      _ = (1 + u) * ((1 - 0.899 * u) * s) := mul_assoc _ _ _
      _ ≤ (1 + u) * ((1 + u) * (b * greatest)) := by gcongr
      _ = (1 + u) ^ 2 * (b * greatest) := by ring

/-- The quotient by the greatest power of ten is as near to the number meant as if only one of the
significand and the power had been rounded before, unless it is subnormal. -/
theorem close_div_greatest (h : 3 ≤ s) :
    double.Close 2 (double.value (double.nearestRank num den)) (s / 10 ^ 308) := by
  have small := double.roundoff_pos
  have power : (0 : ℚ) < 10 ^ 308 := by positivity
  have least := le_greatest
  have most := greatest_le
  have positive := power.trans_le least
  have close := close_nearestRank_div_greatest hden quotient h
  have nonneg := double.value_nonneg (double.nearestRank num den)
  have reached : (1 + double.roundoff / 10) * s ≤
      (1 + double.roundoff) ^ 2 * (double.value (double.nearestRank num den) * greatest) := by
    obtain long | short := Nat.lt_or_ge (2 ^ 53) s
    · exact le_mul_of_rounded hden quotient long
    · have lower := close.2
      rw [pow_one, rounded_of_le short, div_le_iff₀ positive, mul_assoc] at lower
      calc (1 + double.roundoff / 10) * s ≤ (1 + double.roundoff) * s := by
            gcongr
            linarith
        _ ≤ (1 + double.roundoff) *
            ((1 + double.roundoff) * (double.value (double.nearestRank num den) * greatest)) := by
          gcongr
        _ = _ := by ring
  -- the greatest power is above the true one, so from here only the lower bound needs `reached`
  generalize double.value (double.nearestRank num den) = b at *
  generalize (10 ^ 308 : ℚ) = T at *
  constructor
  · calc b ≤ (1 + double.roundoff) * (rounded s / greatest) := by simpa using close.1
      _ ≤ (1 + double.roundoff) * (((1 + double.roundoff) * s) / T) := by
        gcongr
        simpa using (close_rounded s).1
      _ = (1 + double.roundoff) ^ 2 * (s / T) := by ring
  · have exact : (1 + double.roundoff / 10) * s ≤
        (1 + double.roundoff / 10) * ((1 + double.roundoff) ^ 2 * b * T) :=
      calc (1 + double.roundoff / 10) * s ≤ (1 + double.roundoff) ^ 2 * (b * greatest) := reached
        _ ≤ (1 + double.roundoff) ^ 2 * (b * ((1 + double.roundoff / 10) * T)) := by gcongr
        _ = _ := by ring
    rw [div_le_iff₀ power]
    exact le_of_mul_le_mul_left exact (by positivity)

end Quotient

end Untyped.Json.Numeral
