import Mathlib
import Untyped.Proofs.Json.Dropped
import Untyped.Proofs.Json.Exponents
import Untyped.Proofs.Json.Scaling

/-! Numbers that become zero. Digits that are all zero do, whatever the exponent; others only where
the number is below the least double. -/
namespace Untyped.Json.Numeral
open Binary (Finite)
open Format (double)

theorem shrink_of_isZero {x : Double} (h : x.isZero) (n : Nat) : shrink n x = x := by
  cases n with
  | zero => rfl
  | succ n => rw [shrink, if_pos h]

theorem scaled_of_zero (p : Int) :
    scaled (.ofNat .double 0) p = some ⟨false, 0, by decide⟩ := by
  let zero : Finite .double := ⟨false, 0, by decide⟩
  have ofNat : Binary.ofNat .double 0 = .finite zero := by
    obtain ⟨x, hx, sign, _, rank⟩ := exists_ofNat (Binary.double_nearestRank_lt_of_le (Nat.zero_le _))
    have least := double.nearestRank_of_eq_value Nat.one_pos
      (show ((0 : Nat) / (1 : Nat) : ℚ) = double.value 0 by simp [Format.value_zero])
    obtain ⟨_, _, _⟩ := x
    obtain rfl : _ = false := sign
    obtain rfl : _ = 0 := rank.trans least
    exact hx
  have isZero : (Binary.finite zero).isZero = true := rfl
  have nothing : double.Close 0 (double.value zero.rank) 0 := .of_eq double.value_zero
  -- what stands for a product or a quotient of zero rounds from zero itself
  have stays {z : Double} (h : Nearly 0 z 0) : z.finite? = some zero := by
    have rounds := double.roundsTo_value 0
    rw [double.value_zero] at rounds
    rw [h.eq_ofRank rounds, Binary.ofRank, dif_pos zero.rank_lt]
    rfl
  rw [ofNat]
  by_cases up : 0 ≤ p
  · by_cases fits : p ≤ 308
    · obtain ⟨y, hy, sign, _, _⟩ := exists_powerOfTen (show p.toNat ≤ 308 by omega)
      have product := nearly_mul (x := zero) rfl sign nothing (.of_eq rfl) (le_refl 0)
      rw [zero_mul] at product
      rw [scaled_of_nonneg _ up fits, hy]
      exact stays product
    · rw [scaled, if_pos up, if_neg fits, if_pos isZero]
      rfl
  · obtain ⟨y, hy, sign, _, positive⟩ := exists_powerOfTen
      (show p.natAbs - 308 * ((p.natAbs - 1) / 308) ≤ 308 by omega)
    have quotient := nearly_div (x := zero) rfl sign nothing (.of_eq rfl) (le_refl 0) positive
      (double.value_pos positive)
    rw [zero_div] at quotient
    rw [scaled, if_neg up]
    dsimp only
    rw [shrink_of_isZero isZero, hy]
    exact stays quotient

theorem toRounded_of_zero {n : Numeral} (zero : n.significand = 0) :
    n.toRounded = .ok (.signedZero n.negative) := by
  obtain short | long := Nat.lt_or_ge n.power.natAbs 0x80000000
  · rw [toRounded_of_short short]
    apply toFloat_of_scaled
    rw [zero, scaled_of_zero]
  · exact toRounded_of_long_zero long (.inl zero)

theorem mul_midpoint_zero_le {roundings : Nat} (few : roundings ≤ 3) :
    (1 + double.roundoff) ^ roundings * double.midpoint 0 ≤ 9 / 10 * double.gap 0 := by
  have small := roundoff_small
  have unit := double.roundoff_pos
  have gap := double.gap_pos 0
  have factor : (1 + double.roundoff) ^ roundings ≤ 9 / 5 := by
    calc (1 + double.roundoff) ^ roundings ≤ (1 + double.roundoff) ^ 3 :=
          pow_le_pow_right₀ (by linarith) few
      _ ≤ (1 + 1 / 1000) ^ 3 := by gcongr
      _ ≤ 9 / 5 := by norm_num
  have half : double.midpoint 0 = double.gap 0 / 2 := by
    rw [Format.midpoint, double.value_zero, zero_add]
  rw [half]
  nlinarith

theorem Nearly.le_of_zero {roundings : Nat} {z : Double} {q : ℚ} (h : Nearly roundings z q)
    (few : roundings ≤ 3) {y : Finite .double} (result : z.finite? = some y) (zero : y.rank = 0) :
    q ≤ 9 / 10 * double.gap 0 := by
  obtain ⟨num, den, hden, rfl, close⟩ := h
  have rank : double.nearestRank num den = 0 := by
    rw [Binary.nearest, Binary.ofRank] at result
    split at result
    next =>
      obtain rfl := Option.some.inj result
      exact zero
    next => cases result
  have below : (num / den : ℚ) ≤ double.midpoint (double.nearestRank num den) :=
    double.le_midpoint_nearestRank hden
  rw [rank] at below
  have factor : 0 ≤ (1 + double.roundoff) ^ roundings := by
    have := double.roundoff_pos
    positivity
  exact close.2.trans ((mul_le_mul_of_nonneg_left below factor).trans (mul_midpoint_zero_le few))

theorem le_of_low {s j : Nat} {p : Int} (digits : s ≤ 9 * 10 ^ j) (low : p + j ≤ -325) :
    (s * 10 ^ p : ℚ) ≤ 9 / 10 * double.gap 0 := by
  have number : (s : ℚ) ≤ 9 * 10 ^ j := by exact_mod_cast digits
  have power : (10 ^ (p + j) : ℚ) ≤ 10 ^ (-324 - 1 : Int) :=
    zpow_le_zpow_right₀ (by norm_num) (by omega)
  rw [zpow_sub_one₀ (by norm_num)] at power
  have least := lt_gap_zero
  calc (s * 10 ^ p : ℚ) ≤ 9 * 10 ^ j * 10 ^ p := by gcongr
    _ = 9 * 10 ^ (p + j) := by
      rw [zpow_add₀ (by norm_num), zpow_natCast]
      ring
    _ ≤ 9 / 10 * double.gap 0 := by linarith

/-- A significand is scaled to zero only where the product is less than the least double, by more
than the digits that were dropped can make up for. -/
theorem le_of_scaled_zero {s : Nat} {p : Int} (positive : 0 < s) (hs : s ≤ 2 ^ 64)
    {y : Finite .double} (result : scaled (.ofNat .double s) p = some y) (zero : y.rank = 0) :
    (s * 10 ^ p : ℚ) ≤ 9 / 10 * double.gap 0 := by
  by_cases beyond : 308 < p
  · rw [scaled_of_beyond (not_isZero_ofNat positive hs) beyond] at result
    cases result
  by_cases near : -308 ≤ p ∨ (3 ≤ s ∧ -616 ≤ p)
  · obtain ⟨z, hz, close⟩ := exists_nearly_scaled hs near (by omega)
    exact close.le_of_zero (Nat.le_refl 3) (hz.symm.trans result) zero
  by_cases far : p < -616
  · exact le_of_low (j := 20) (by omega) (by omega)
  obtain ⟨k, hk⟩ := Int.eq_ofNat_of_zero_le (show 0 ≤ -308 - p by omega)
  obtain rfl : p = -(308 + k : Nat) := by
    push_cast
    omega
  obtain few | many := Nat.lt_or_ge k 17
  · have ten : 0 < 10 ^ (308 + k) := Nat.pow_pos (by omega)
    rw [scaled_of_tiny s (by omega) k (by omega)] at result
    have quotient : ((s : Nat) / (10 ^ (308 + k) : Nat) : ℚ) = s * 10 ^ (-(308 + k : Nat) : Int) := by
      rw [zpow_neg, zpow_natCast, div_eq_mul_inv]
      push_cast
      rfl
    have once : Nearly 0 (.nearest .double false s (10 ^ (308 + k)))
        (s * 10 ^ (-(308 + k : Nat) : Int)) := ⟨s, _, ten, rfl, .of_eq quotient⟩
    exact once.le_of_zero (by omega) result zero
  · exact le_of_low (j := 0) (by omega) (by push_cast; omega)

/-- Only a number below the least double becomes zero, if the digits before its point are not so many
that an exponent of more than 31 bits could be made up for. -/
theorem magnitude_lt_of_zero {n : Numeral} (nonzero : n.significand ≠ 0)
    (few : n.whole.length ≤ 2 ^ 30) {x : Finite .double} (rounded : n.toRounded = .ok (.float x))
    (zero : x.rank = 0) : n.magnitude < double.gap 0 := by
  obtain short | long := Nat.lt_or_ge n.power.natAbs 0x80000000
  · rw [toRounded_of_short short, toFloat] at rounded
    cases result : scaled (.ofNat .double n.significand) (n.position + n.power) with
    | none =>
      rw [result] at rounded
      cases rounded
    | some y =>
      rw [result] at rounded
      have rank : y.rank = 0 := by
        obtain rfl := Number.float.inj (Except.ok.inj rounded)
        revert zero
        cases n.negative <;> exact id
      have below := le_of_scaled_zero (Nat.pos_of_ne_zero nonzero) n.significand_lt.le result rank
      have digits := n.close_magnitude.2
      have small := roundoff_small
      have unit := double.roundoff_pos
      have gap := double.gap_pos 0
      rw [pow_one] at digits
      calc n.magnitude ≤
            (1 + double.roundoff) * (n.significand * 10 ^ (n.position + n.power)) := digits
        _ ≤ (1 + 1 / 1000) * (9 / 10 * double.gap 0) := by gcongr
        _ < double.gap 0 := by linarith
  -- a long exponent makes a zero only if it is negative, and then the digits cannot make up for it
  · have down : n.power < 0 := by
      by_contra up
      have none := toRounded_of_long_large long (not_or.2 ⟨nonzero, up⟩)
      rw [rounded] at none
      cases none
    have digits : (Digit.toNat (n.whole ++ n.fraction) : ℚ) ≤
        10 ^ (n.whole.length + n.fraction.length : Nat) := by
      rw [← List.length_append]
      exact_mod_cast (Digit.toNat_lt _).le
    refine lt_of_le_of_lt ?_ lt_gap_zero
    calc n.magnitude ≤ 10 ^ (n.whole.length + n.fraction.length : Nat) *
          10 ^ (n.power - n.fraction.length) := by
          rw [Numeral.magnitude]
          gcongr
      _ = 10 ^ (n.whole.length + n.power) := by
          rw [← zpow_natCast, ← zpow_add₀ (by norm_num)]
          congr 1
          push_cast
          ring
      _ ≤ 10 ^ (-324 : Int) := zpow_le_zpow_right₀ (by norm_num) (by omega)

end Untyped.Json.Numeral
