import Mathlib
import Untyped.Proofs.Json.PowersOfTen

/-! A significand is scaled in doubles: it is rounded, multiplied by a rounded power of ten or
divided by one, and the result is rounded. That leads at most two ranks away from the double nearest
to the number meant. -/
namespace Untyped.Json.Numeral
open Binary (Finite)
open Format (double)

/-- The double is the one nearest to a number that so many roundings have made of `q`. -/
def Nearly (roundings : Nat) (z : Double) (q : ℚ) : Prop :=
  ∃ num den : Nat, 0 < den ∧ z = .nearest .double false num den ∧
    double.Close roundings (num / den) q

section Arithmetic

variable {m n : Nat} {x y : Finite .double} {p q : ℚ} (hx : x.negative = false)
  (hy : y.negative = false) (closeX : double.Close m (double.value x.rank) p)
  (closeY : double.Close n (double.value y.rank) q) (hp : 0 ≤ p)

include hx hy closeX closeY hp

theorem nearly_mul : Nearly (m + n) (.mul (.finite x) (.finite y)) (p * q) := by
  refine ⟨x.magnitude * y.magnitude, 2 ^ (2 * double.scale), Nat.pow_pos (by omega), ?_, ?_⟩
  · change x.mul y = _
    rw [Finite.mul, hx, hy, bne_self_eq_false, Nat.pow_eq]
  · have product : ((x.magnitude * y.magnitude : Nat) / (2 ^ (2 * double.scale) : Nat) : ℚ) =
        double.value x.rank * double.value y.rank := by
      rw [Format.value, Format.value, Finite.magnitude, Finite.magnitude, Nat.two_mul, pow_add]
      push_cast
      rw [div_mul_div_comm]
    rw [product]
    exact closeX.mul closeY hp (double.value_nonneg _)

theorem nearly_div (nonzero : 0 < y.rank) (hq : 0 < q) :
    Nearly (m + n) (.div (.finite x) (.finite y)) (p / q) := by
  have positive : 0 < y.magnitude := by
    have := double.magnitude_strictMono nonzero
    rwa [Format.magnitude_zero] at this
  refine ⟨x.magnitude, y.magnitude, positive, ?_, ?_⟩
  · change x.div y = _
    have : ¬y.isZero := by
      rw [Finite.isZero, beq_iff_eq]
      omega
    rw [Finite.div, if_neg this, hx, hy, bne_self_eq_false]
  · have quotient : (x.magnitude / y.magnitude : ℚ) = double.value x.rank / double.value y.rank := by
      rw [Format.value, Format.value, div_div_div_cancel_right₀ double.scale_pos.ne']
      rfl
    rw [quotient]
    exact closeX.div closeY hp (double.value_pos nonzero) hq

end Arithmetic

theorem Nearly.mono {m n : Nat} {z : Double} {q : ℚ} (h : Nearly m z q) (le : m ≤ n)
    (hq : 0 ≤ q) : Nearly n z q := by
  obtain ⟨num, den, hden, hz, close⟩ := h
  exact ⟨num, den, hden, hz, close.mono le (by positivity) hq⟩

theorem exists_div_finite {x y : Finite .double} (hx : x.negative = false)
    (hy : y.negative = false) (least : 1 ≤ double.value y.rank) :
    ∃ (num den : Nat) (finite : double.nearestRank num den < double.count), 0 < den ∧
      (num / den : ℚ) = double.value x.rank / double.value y.rank ∧
      Binary.div (.finite x) (.finite y) = .finite ⟨false, double.nearestRank num den, finite⟩ := by
  have positive : 0 < y.rank := by
    rw [← double.value_strictMono.lt_iff_lt, double.value_zero]
    linarith
  obtain ⟨num, den, hden, quotient, close⟩ := nearly_div hx hy (.of_eq rfl) (.of_eq rfl)
    (double.value_nonneg _) positive (double.value_pos positive)
  have finite : double.nearestRank num den < double.count := by
    apply Nat.lt_of_le_of_lt _ x.rank_lt
    apply double.nearestRank_le_of_le_value hden
    rw [close.eq]
    exact div_le_self (double.value_nonneg _) least
  exact ⟨num, den, finite, hden, close.eq, quotient.trans (Binary.nearest_of_lt finite)⟩

/-- What two roundings and a last one make of a number is within two ranks of its own double. -/
theorem Nearly.exists_rank {z : Double} {q : ℚ} (h : Nearly 2 z q) {rank : Nat}
    (rounds : double.RoundsTo q rank) :
    ∃ near, z = .ofRank .double false near ∧ near ≤ rank + 2 ∧ rank ≤ near + 2 := by
  obtain ⟨num, den, hden, hz, close⟩ := h
  exact ⟨_, hz, double.nearestRank_of_close hden rounds close⟩

theorem Nearly.eq_ofRank {z : Double} {q : ℚ} (h : Nearly 0 z q) {rank : Nat}
    (rounds : double.RoundsTo q rank) : z = .ofRank .double false rank := by
  obtain ⟨num, den, hden, hz, close⟩ := h
  rw [hz, Binary.nearest, (double.nearestRank_eq_iff hden rank).2 (by rwa [close.eq])]

theorem scaled_of_nonneg (x : Double) {p : Int} (low : 0 ≤ p) (high : p ≤ 308) :
    scaled x p = (x.mul (powerOfTen p.toNat)).finite? := by
  rw [scaled, if_pos low, if_pos high]

theorem scaled_of_neg (x : Double) {p : Int} (low : -308 ≤ p) (high : p < 0) :
    scaled x p = (x.div (powerOfTen p.natAbs)).finite? := by
  have once : (p.natAbs - 1) / 308 = 0 := by omega
  rw [scaled, if_neg (by omega)]
  dsimp only
  rw [once, Nat.mul_zero, Nat.sub_zero, shrink]

theorem scaled_of_low {x : Double} (nonzero : ¬x.isZero) {p : Int} (low : -616 ≤ p)
    (high : p < -308) :
    scaled x p = ((x.div (powerOfTen 308)).div (powerOfTen (p.natAbs - 308))).finite? := by
  have twice : (p.natAbs - 1) / 308 = 1 := by omega
  rw [scaled, if_neg (by omega)]
  dsimp only
  rw [twice, Nat.mul_one, shrink, if_neg nonzero, shrink]

theorem scaled_of_beyond {x : Double} (nonzero : ¬x.isZero) {p : Int} (high : 308 < p) :
    scaled x p = none := by
  rw [scaled, if_pos (by omega), if_neg (by omega), if_neg nonzero]

section Significand

variable {s : Nat} {p : Int} (hs : s ≤ 2 ^ 64)

include hs

/-- Once multiplied or divided, a number is as near to the one meant as its significand and the power
of ten are to theirs. -/
theorem exists_nearly (low : -308 ≤ p) (high : p ≤ 308) :
    ∃ z, scaled (.ofNat .double s) p = z.finite? ∧ ∀ m n, double.Close m (rounded s) s →
      double.Close n (rounded (10 ^ p.natAbs)) (10 ^ p.natAbs : Nat) →
      Nearly (m + n) z (s * 10 ^ p) := by
  obtain ⟨x, hx, signX, valueX, _⟩ := exists_ofNat (Binary.double_nearestRank_lt_of_le hs)
  obtain ⟨y, hy, signY, valueY, positive⟩ := exists_powerOfTen (show p.natAbs ≤ 308 by omega)
  have ten : (0 : ℚ) < (10 ^ p.natAbs : Nat) := by positivity
  rw [hx, ← valueX, ← valueY]
  by_cases up : 0 ≤ p
  · have power : ((10 ^ p.natAbs : Nat) : ℚ) = 10 ^ p := by
      rw [Nat.cast_pow, ← zpow_natCast, Int.natAbs_of_nonneg up, Nat.cast_ofNat]
    have same : p.toNat = p.natAbs := by omega
    refine ⟨.mul (.finite x) (.finite y), ?_, fun m n closeX closeY => ?_⟩
    · rw [scaled_of_nonneg _ up high, same, hy]
    · rw [← power]
      exact nearly_mul signX signY closeX closeY (Nat.cast_nonneg s)
  · have power : (s * 10 ^ p : ℚ) = s / (10 ^ p.natAbs : Nat) := by
      rw [Nat.cast_pow, ← zpow_natCast, Int.ofNat_natAbs_of_nonpos (by omega), Nat.cast_ofNat,
        zpow_neg, div_inv_eq_mul]
    refine ⟨.div (.finite x) (.finite y), ?_, fun m n closeX closeY => ?_⟩
    · rw [scaled_of_neg _ low (by omega), hy]
    · rw [power]
      exact nearly_div signX signY closeX closeY (Nat.cast_nonneg s) positive ten

/-- Divided by the greatest power of ten and then by the rest, it is as near as if it were divided
once, but for the rounding of the rest. -/
theorem exists_nearly_of_low (large : 3 ≤ s) (low : -616 ≤ p) (high : p < -308) :
    ∃ z, scaled (.ofNat .double s) p = z.finite? ∧ ∀ n,
      double.Close n (rounded (10 ^ (p.natAbs - 308))) (10 ^ (p.natAbs - 308) : Nat) →
      Nearly (2 + n) z (s * 10 ^ p) := by
  obtain ⟨k, hk⟩ := Int.eq_ofNat_of_zero_le (show 0 ≤ -308 - p by omega)
  obtain ⟨x, hx, signX, valueX, _⟩ := exists_ofNat (Binary.double_nearestRank_lt_of_le hs)
  obtain ⟨y, hy, signY, valueY, _⟩ := exists_powerOfTen (Nat.le_refl 308)
  obtain ⟨z, hz, signZ, valueZ, positiveZ⟩ := exists_powerOfTen (show k ≤ 308 by omega)
  obtain ⟨num, den, finite, hden, quotient, first⟩ :=
    exists_div_finite signX signY (valueY ▸ one_le_rounded_pow_ten 308)
  rw [valueX, valueY] at quotient
  have ten : (0 : ℚ) < (10 ^ k : Nat) := by positivity
  have power : (s * 10 ^ p : ℚ) = s / 10 ^ 308 / (10 ^ k : Nat) := by
    rw [show p = -((308 + k : Nat) : Int) by push_cast; omega, zpow_neg, zpow_natCast, pow_add,
      div_div, div_eq_mul_inv]
    push_cast
    rfl
  have nonzero := not_isZero_ofNat (show 0 < s by omega) hs
  have rest : p.natAbs - 308 = k := by omega
  refine ⟨.div (.finite ⟨false, _, finite⟩) (.finite z), ?_, fun n last => ?_⟩
  · rw [scaled_of_low nonzero (by omega) high, hx, hy, rest, hz, first]
  · rw [rest, ← valueZ] at last
    rw [power]
    have most := close_div_greatest hden quotient large
    exact nearly_div rfl signZ most last (by positivity) positiveZ ten

/-- Three roundings scale a significand, unless it is too small to be divided twice. -/
theorem exists_nearly_scaled (low : -308 ≤ p ∨ (3 ≤ s ∧ -616 ≤ p)) (high : p ≤ 308) :
    ∃ z, scaled (.ofNat .double s) p = z.finite? ∧ Nearly 3 z (s * 10 ^ p) := by
  by_cases once : -308 ≤ p
  · obtain ⟨z, hz, nearly⟩ := exists_nearly hs once high
    have close := nearly 1 1 (close_rounded s) (close_rounded _)
    exact ⟨z, hz, close.mono (by omega) (by positivity)⟩
  · obtain ⟨large, low⟩ := low.resolve_left once
    obtain ⟨z, hz, nearly⟩ := exists_nearly_of_low (p := p) hs large low (by omega)
    exact ⟨z, hz, nearly 1 (close_rounded _)⟩

omit hs in
/-- For the least significands the first quotient is subnormal, but the second one is what it would
be without the first rounding. -/
theorem scaled_of_tiny : ∀ s < 3, ∀ k ≤ 16,
    scaled (.ofNat .double s) (-(308 + k : Nat)) =
      (Binary.ofRank .double false (double.nearestRank s (10 ^ (308 + k)))).finite? := by
  decide +kernel

/-- A significand scaled by a power of ten is at most two ranks away from the double nearest to their
product, and it is that double where both of them are doubles. -/
theorem exists_scaled_rank (low : -324 ≤ p) (high : p ≤ 308) {rank : Nat}
    (rounds : double.RoundsTo (s * 10 ^ p) rank) :
    ∃ near, scaled (.ofNat .double s) p = (Binary.ofRank .double false near).finite? ∧
      near ≤ rank + 2 ∧ rank ≤ near + 2 ∧ (s ≤ 2 ^ 53 → p.natAbs ≤ 22 → near = rank) := by
  by_cases once : -308 ≤ p
  · obtain ⟨z, hz, nearly⟩ := exists_nearly hs once high
    by_cases easy : s ≤ 2 ^ 53 ∧ p.natAbs ≤ 22
    · have exact := nearly 0 0 (.of_eq (rounded_of_le easy.1)) (.of_eq (rounded_pow_ten easy.2))
      exact ⟨rank, by rw [hz, exact.eq_ofRank rounds], by omega, by omega, fun _ _ => rfl⟩
    · have close := nearly 1 1 (close_rounded s) (close_rounded _)
      obtain ⟨near, hnear, above, below⟩ := close.exists_rank rounds
      exact ⟨near, by rw [hz, hnear], above, below, fun short few => absurd ⟨short, few⟩ easy⟩
  have far : ¬p.natAbs ≤ 22 := by omega
  obtain tiny | large := Nat.lt_or_ge s 3
  · obtain ⟨k, hk⟩ := Int.eq_ofNat_of_zero_le (show 0 ≤ -308 - p by omega)
    obtain rfl : p = -(308 + k : Nat) := by
      push_cast
      omega
    have ten : 0 < 10 ^ (308 + k) := Nat.pow_pos (by omega)
    have own : double.nearestRank s (10 ^ (308 + k)) = rank := by
      rw [double.nearestRank_eq_iff ten]
      rw [zpow_neg, zpow_natCast, ← div_eq_mul_inv] at rounds
      exact_mod_cast rounds
    refine ⟨rank, ?_, by omega, by omega, fun _ _ => rfl⟩
    rw [scaled_of_tiny s tiny k (by omega), own]
  · obtain ⟨z, hz, nearly⟩ := exists_nearly_of_low (p := p) hs large (by omega) (by omega)
    have close := nearly 0 (.of_eq (rounded_pow_ten (by omega)))
    obtain ⟨near, hnear, above, below⟩ := close.exists_rank rounds
    exact ⟨near, by rw [hz, hnear], above, below, fun _ few => absurd few far⟩

end Significand

end Untyped.Json.Numeral
