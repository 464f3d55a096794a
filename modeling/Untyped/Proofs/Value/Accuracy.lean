import Mathlib
import Untyped.Proofs.Json.Overflow
import Untyped.Proofs.Value.Integers

/-! How far the number that a text loads as is from the one it says. At most five roundings lie
between them where no double is subnormal. -/
namespace Untyped
open Binary (Finite)
open Format (double)
open Json (Blank NumberToken)

namespace Json

namespace Numeral

theorem exponent_bounds {m k : Nat} {p a b : Int} (few : m < 10 ^ k)
    (least : (10 ^ a : ℚ) ≤ m * 10 ^ p) (most : (m * 10 ^ p : ℚ) < 10 ^ b) : a < p + k ∧ p < b := by
  have unit : (0 : ℚ) < 10 ^ p := by positivity
  have positive : (1 : ℚ) ≤ m := by
    have : (0 : ℚ) < m * 10 ^ p := lt_of_lt_of_le (by positivity) least
    exact_mod_cast pos_of_mul_pos_left this unit.le
  have digits : (m : ℚ) < 10 ^ k := by exact_mod_cast few
  constructor
  · apply (zpow_lt_zpow_iff_right₀ (show (1 : ℚ) < 10 by norm_num)).1
    calc (10 ^ a : ℚ) ≤ m * 10 ^ p := least
      _ < 10 ^ k * 10 ^ p := by gcongr
      _ = 10 ^ (p + k) := by rw [zpow_add₀ (by norm_num), zpow_natCast, mul_comm]
  · apply (zpow_lt_zpow_iff_right₀ (show (1 : ℚ) < 10 by norm_num)).1
    calc (10 ^ p : ℚ) ≤ m * 10 ^ p := le_mul_of_one_le_left unit.le positive
      _ < 10 ^ b := most

theorem ten_pow_le_two_pow : 1.795 * 10 ^ 308 ≤ (1 - double.roundoff) * 2 ^ 1024 := by
  have power := le_greatest
  have small := roundoff_small
  have split : (2 : ℚ) ^ 1024 = 2 ^ 53 * 2 ^ 971 := pow_add 2 53 971
  rw [greatest_eq] at power
  rw [split, ← mul_assoc]
  calc (1.795 * 10 ^ 308 : ℚ) ≤ 1.795 * (5010420900022432 * 2 ^ 971) := by gcongr
    _ = 1.795 * 5010420900022432 * 2 ^ 971 := (mul_assoc _ _ _).symm
    _ ≤ (1 - double.roundoff) * 2 ^ 53 * 2 ^ 971 := by
      refine mul_le_mul_of_nonneg_right ?_ (by positivity)
      linarith only [small]

theorem Nearly.close {roundings : Nat} {z : Double} {q : ℚ} (h : Nearly roundings z q)
    {y : Finite .double} (result : z.finite? = some y)
    (normal : (1 + double.roundoff) ^ roundings * double.value double.fractions ≤ q) :
    y.negative = false ∧ double.Close (1 + roundings) (double.value y.rank) q := by
  obtain ⟨num, den, hden, rfl, close⟩ := h
  have factor : 0 < 1 + double.roundoff := by linarith [double.roundoff_pos]
  have above : double.value double.fractions ≤ num / den :=
    le_of_mul_le_mul_left (normal.trans close.2) (pow_pos factor roundings)
  rw [Binary.nearest, Binary.ofRank] at result
  split at result
  next =>
    obtain rfl := Option.some.inj result
    exact ⟨rfl, (double.close_nearestRank hden above).trans close⟩
  next => cases result

theorem ten_mul_value_fractions_le : 10 * double.value double.fractions ≤ 10 ^ (-291 : Int) := by
  have power := le_greatest
  have most := value_fractions_mul_greatest
  have nonneg := double.value_nonneg double.fractions
  have split : (10 : ℚ) ^ (-291 : Int) * 10 ^ 308 = 10 ^ 17 := by
    have sum := zpow_add₀ (show (10 : ℚ) ≠ 0 by norm_num) (-291) (308 : Nat)
    rw [zpow_natCast] at sum
    exact sum.symm.trans (zpow_natCast 10 17)
  refine le_of_mul_le_mul_right ?_ (show (0 : ℚ) < 10 ^ 308 by positivity)
  calc 10 * double.value double.fractions * 10 ^ 308 ≤
        10 * double.value double.fractions * greatest :=
        mul_le_mul_of_nonneg_left power (mul_nonneg (by norm_num) nonneg)
    _ ≤ 10 ^ 17 := by linarith only [most]
    _ = 10 ^ (-291 : Int) * 10 ^ 308 := split.symm

theorem lt_ten_pow {q : ℚ} (h : q ≤ 1.792 * 10 ^ 308) : q < 10 ^ ((308 + 1 : Nat) : Int) := by
  have positive : (0 : ℚ) < 10 ^ 308 := by positivity
  rw [zpow_natCast, pow_succ']
  generalize (10 : ℚ) ^ 308 = power at *
  linarith

theorem pow_roundoff_le {k : Nat} (few : k ≤ 3) : (1 + double.roundoff) ^ k ≤ 1.001 := by
  have unit := double.roundoff_pos
  refine (pow_le_pow_right₀ (by linarith) few).trans ?_
  rw [Format.double_roundoff]
  norm_num

theorem Nearly.exists_close {z : Double} {q : ℚ} (h : Nearly 3 z q) (low : 10 ^ (-291 : Int) ≤ q)
    (high : q ≤ 1.792 * 10 ^ 308) :
    ∃ rank finite, z.finite? = some ⟨false, rank, finite⟩ ∧
      double.Close 4 (double.value rank) q := by
  have factor := pow_roundoff_le (Nat.le_refl 3)
  cases result : z.finite? with
  | none =>
    have positive : (0 : ℚ) < 10 ^ 308 := by positivity
    have nonneg : 0 ≤ q := le_trans (by positivity) low
    have beyond : 1.795 * 10 ^ 308 ≤ 1.001 * (1.792 * (10 ^ 308 : ℚ)) :=
      calc (1.795 * 10 ^ 308 : ℚ) ≤ (1 - double.roundoff) * 2 ^ 1024 := ten_pow_le_two_pow
        _ ≤ (1 + double.roundoff) ^ 3 * q := h.le_of_infinite result
        _ ≤ 1.001 * (1.792 * 10 ^ 308) := by gcongr
    generalize (10 : ℚ) ^ 308 = power at positive beyond
    linarith
  | some y =>
    have nonneg := double.value_nonneg double.fractions
    have normal : (1 + double.roundoff) ^ 3 * double.value double.fractions ≤ q := by
      have small := mul_le_mul_of_nonneg_right factor nonneg
      linarith only [small, nonneg, low, ten_mul_value_fractions_le]
    obtain ⟨sign, close⟩ := h.close result normal
    obtain ⟨_, rank, finite⟩ := y
    obtain rfl : _ = false := sign
    exact ⟨rank, finite, rfl, close⟩

/-- A significand that is scaled to a number far from both ends is divided at most twice, and never
as one of the least significands. -/
theorem exists_scaled_close {s : Nat} {p : Int} (hs : s < 2 ^ 64)
    (low : (10 ^ (-291 : Int) : ℚ) ≤ s * 10 ^ p) (high : (s * 10 ^ p : ℚ) ≤ 1.792 * 10 ^ 308) :
    ∃ rank finite, scaled (.ofNat .double s) p = some ⟨false, rank, finite⟩ ∧
      double.Close 4 (double.value rank) (s * 10 ^ p) := by
  have bounds := exponent_bounds (k := 20) (by omega) low (lt_ten_pow high)
  have near : -308 ≤ p ∨ (3 ≤ s ∧ -616 ≤ p) := by
    by_contra far
    have := exponent_bounds (k := 1) (by omega) low (lt_ten_pow high)
    omega
  obtain ⟨z, hz, nearly⟩ := exists_nearly_scaled hs.le near (by omega)
  obtain ⟨rank, finite, result, close⟩ := nearly.exists_close low high
  exact ⟨rank, finite, hz.trans result, close⟩

section Accurate

variable {n : Numeral} (least : 10 ^ (-290 : Int) ≤ n.magnitude)
  (most : n.magnitude ≤ 1.79 * 10 ^ 308)

include least most

theorem natAbs_power_lt (few : n.whole.length + n.fraction.length < 2 ^ 30) :
    n.power.natAbs < 0x80000000 := by
  have digits := Digit.toNat_lt (n.whole ++ n.fraction)
  have below : n.magnitude ≤ 1.792 * 10 ^ 308 := most.trans (by gcongr; norm_num)
  have bounds := exponent_bounds digits least (lt_ten_pow below)
  rw [List.length_append] at bounds
  push_cast at bounds
  omega

/-- A number far from both ends of the doubles is rounded to one that five roundings lead to. -/
theorem exists_close_of_short (short : n.power.natAbs < 0x80000000) :
    ∃ y : Finite .double, n.toRounded = .ok (.float y) ∧ y.negative = n.negative ∧
      double.Close 5 (double.value y.rank) n.magnitude := by
  have factor := pow_roundoff_le (show 1 ≤ 3 by omega)
  have close := n.close_magnitude
  have low : (10 ^ (-291 : Int) : ℚ) ≤ n.significand * 10 ^ (n.position + n.power) := by
    have tenth : (10 ^ (-290 : Int) : ℚ) = 10 * 10 ^ (-291 : Int) := by
      rw [← zpow_one_add₀ (by norm_num)]
      rfl
    have nonneg : (0 : ℚ) ≤ n.significand * 10 ^ (n.position + n.power) := by positivity
    have := mul_le_mul_of_nonneg_right factor nonneg
    linarith [close.2]
  have high : (n.significand * 10 ^ (n.position + n.power) : ℚ) ≤ 1.792 * 10 ^ 308 :=
    calc (n.significand * 10 ^ (n.position + n.power) : ℚ) ≤
          (1 + double.roundoff) ^ 1 * n.magnitude := close.1
      _ ≤ 1.001 * (1.79 * 10 ^ 308) := by
        have : 0 ≤ n.magnitude := le_trans (by positivity) least
        gcongr
      _ = 1.001 * 1.79 * 10 ^ 308 := (mul_assoc _ _ _).symm
      _ ≤ 1.792 * 10 ^ 308 := by
        gcongr
        norm_num
  obtain ⟨rank, finite, scaled, near⟩ := exists_scaled_close n.significand_lt low high
  have total := near.trans close
  rw [toRounded_of_short short]
  exact ⟨⟨n.negative, rank, finite⟩, toFloat_of_scaled scaled, rfl, total⟩

end Accurate

theorem close_abs_sub_le {a b : ℚ} (close : double.Close 5 a b) (nonneg : 0 ≤ b) :
    |a - b| ≤ 1 / 2 ^ 50 * b := by
  have few : (1 + double.roundoff) ^ 5 - 1 ≤ 1 / 2 ^ 50 := by
    rw [Format.double_roundoff]
    norm_num
  exact (close.abs_sub_le nonneg).trans (mul_le_mul_of_nonneg_right few nonneg)

end Numeral

theorem Number.number?_toValue (n : Number) : n.toValue.number? = some n.toDouble := by
  cases n with
  | float x => rfl
  | integer k h =>
    rw [Number.toValue]
    split
    next small =>
      have same : (Int32.ofInt k).toInt = k := Int32.toInt_ofInt_of_le (by omega) (by omega)
      rw [Value.number?, same, Number.toDouble]
    next => rfl

namespace NumberToken

variable {t : NumberToken}

def toRat (t : NumberToken) : ℚ := Binary.signed t.negative t.numeral.magnitude

theorem abs_toRat (t : NumberToken) : |t.toRat| = t.numeral.magnitude := by
  rw [toRat, Binary.signed]
  split
  next => rw [abs_neg, abs_of_nonneg t.magnitude_nonneg]
  next => rw [abs_of_nonneg t.magnitude_nonneg]

theorem near_of_close {y : Finite .double} (sign : y.negative = t.negative)
    (close : double.Close 5 (double.value y.rank) t.numeral.magnitude)
    (positive : 0 < t.numeral.magnitude) :
    SignType.sign y.toRat = SignType.sign t.toRat ∧
      |y.toRat - t.toRat| ≤ 1 / 2 ^ 50 * |t.toRat| := by
  have nonzero : 0 < double.value y.rank := by
    have factor : 0 < (1 + double.roundoff) ^ 5 := by
      have := double.roundoff_pos
      positivity
    exact pos_of_mul_pos_right (positive.trans_le close.2) factor.le
  constructor
  · rw [Finite.toRat, toRat, sign, Binary.signed, Binary.signed]
    split
    next => rw [sign_neg (neg_lt_zero.2 nonzero), sign_neg (neg_lt_zero.2 positive)]
    next => rw [sign_pos nonzero, sign_pos positive]
  · rw [abs_toRat, Finite.toRat, toRat, sign, Binary.abs_signed_sub]
    exact Numeral.close_abs_sub_le close positive.le

section Accurate

variable (short : t.text.length < 2 ^ 30) (least : 10 ^ (-290 : Int) ≤ t.numeral.magnitude)
  (most : t.numeral.magnitude ≤ 1.79 * 10 ^ 308)

include short least most

theorem exists_number?_close : ∃ (n : Number) (y : Finite .double), t.number? = some n ∧
    n.toDouble = .finite y ∧ y.negative = t.negative ∧
    double.Close 5 (double.value y.rank) t.numeral.magnitude := by
  have digits := t.length_digits_le
  have exponent := Numeral.natAbs_power_lt least most (by omega)
  obtain ⟨y, rounded, sign, close⟩ := Numeral.exists_close_of_short least most exponent
  obtain ⟨n, number⟩ : ∃ n, t.number? = some n := by
    rw [number?, rounded]
    cases t.integer?.bind Number.ofInt? with
    | none => exact ⟨_, rfl⟩
    | some n => exact ⟨n, rfl⟩
  obtain ⟨k, inRange, rfl, integer⟩ | ⟨x, rfl, same⟩ := number?_cases number
  · -- an integer is rounded once
    obtain ⟨plain, rfl⟩ := plain_of_integer? integer
    have finite := Binary.double_nearestRank_lt_of_le (n := t.whole.natAbs) (by omega)
    have near : double.Close 5 (Numeral.rounded t.whole.natAbs) t.numeral.magnitude := by
      rw [plain.magnitude]
      exact (Numeral.close_rounded _).mono (by omega) (double.value_nonneg _) (by positivity)
    refine ⟨_, ⟨decide (t.whole < 0), _, finite⟩, number, Binary.nearest_of_lt finite, ?_, near⟩
    have nonzero : t.text ≠ ['-', '0'] := by
      intro minusZero
      have positive : 0 < t.numeral.magnitude := lt_of_lt_of_le (by positivity) least
      rw [plain.magnitude, (plain.text_eq_iff.1 minusZero).2] at positive
      simp at positive
    have sign := plain.whole_neg_iff nonzero
    exact Bool.decide_congr sign |>.trans (Bool.decide_eq_true)
  · obtain rfl := Number.float.inj (Except.ok.inj (rounded.symm.trans same))
    exact ⟨_, y, number, rfl, sign, close⟩

end Accurate

end NumberToken

end Json

/-- A number of less than `2 ^ 30` bytes that is far from both ends of the doubles loads, blanks
around it apart, as a value whose number has its sign and is not farther from it than its part
`2 ^ (-50)`, however many digits it has and wherever its point and its exponent are. -/
theorem loadValue_accurate (identity : Nat) (text : String) (before after : Blank)
    (t : NumberToken) (written : text.toList = before.chars ++ t.text ++ after.chars)
    (short : Text.byteLength t.text < 2 ^ 30) (least : 10 ^ (-290 : Int) ≤ |t.toRat|)
    (most : |t.toRat| ≤ 1.79 * 10 ^ 308) :
    ∃ (v : Value) (y : Finite .double), loadValue identity text = .ok v ∧
      v.number? = some (.finite y) ∧ SignType.sign y.toRat = SignType.sign t.toRat ∧
      |y.toRat - t.toRat| ≤ 1 / 2 ^ 50 * |t.toRat| := by
  have length := Text.length_le_byteLength t.text
  rw [t.abs_toRat] at least most
  obtain ⟨n, y, number, double, sign, close⟩ :=
    NumberToken.exists_number?_close (by omega) least most
  have positive : 0 < t.numeral.magnitude := lt_of_lt_of_le (by positivity) least
  refine ⟨n.toValue, y, loadValue_of_spaced written number identity, ?_,
    NumberToken.near_of_close sign close positive⟩
  rw [Json.Number.number?_toValue, double]

/-- The digits after the point are dropped, and the others are divided by powers of ten twice. -/
theorem loadValue_accurate_divided_twice :
    let t : NumberToken := ⟨true, 1, [8, 4, 4, 6, 7, 4, 4, 0, 7, 3, 7, 0, 9, 5, 5, 1, 6, 1, 5],
      fun h => absurd h (by decide), [9, 9],
      some ⟨false, some true, [3, 0, 9], List.cons_ne_nil _ _⟩⟩
    Text.byteLength t.text < 2 ^ 30 ∧ 10 ^ (-290 : Int) ≤ |t.toRat| ∧
      |t.toRat| ≤ 1.79 * 10 ^ 308 ∧
      ∃ (v : Value) (y : Finite .double),
        loadValue 0 "-18446744073709551615.99e-309" = .ok v ∧ v.number? = some (.finite y) ∧
        SignType.sign y.toRat = SignType.sign t.toRat ∧
        |y.toRat - t.toRat| ≤ 1 / 2 ^ 50 * |t.toRat| := by
  intro t
  have significand : t.significand = 1844674407370955161599 := by decide
  have power : t.power = -311 := by decide
  have magnitude : |t.toRat| = 1844674407370955161599 * 10 ^ (-311 : Int) := by
    rw [t.abs_toRat, t.magnitude_numeral, significand, power, Nat.cast_ofNat]
  have unit : (10 : ℚ) ^ (-290 : Int) = 10 ^ 21 * 10 ^ (-311 : Int) :=
    zpow_add₀ (by norm_num) 21 (-311)
  have short : Text.byteLength t.text < 2 ^ 30 := by decide
  have least : 10 ^ (-290 : Int) ≤ |t.toRat| := by
    rw [magnitude, unit]
    gcongr
    norm_num
  have most : |t.toRat| ≤ 1.79 * 10 ^ 308 := by
    have small : (10 : ℚ) ^ (-311 : Int) ≤ 10 ^ (-30 : Int) :=
      zpow_le_zpow_right₀ (by norm_num) (by norm_num)
    rw [magnitude]
    calc (1844674407370955161599 * 10 ^ (-311 : Int) : ℚ) ≤
          1844674407370955161599 * 10 ^ (-30 : Int) := by gcongr
      _ ≤ 1.79 * 1 := by norm_num
      _ ≤ 1.79 * 10 ^ 308 := by
        gcongr
        exact one_le_pow₀ (by norm_num)
  exact ⟨short, least, most, loadValue_accurate 0 _ .none .none t (by decide) short least most⟩

end Untyped
