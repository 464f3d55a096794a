import Mathlib
import Untyped.Proofs.Decimal.Grid

/-! Decimals near the midpoints between singles. A decimal whose last digit counts for at least the
gap between the singles there is on a midpoint or away from it by more than a double could tell,
with one exception. That is a question about fractions near a quotient, and continued fractions
answer it for each binade. -/
namespace Untyped

/-- How far `q * a` is from `p * b`, and so the fraction `p / q` from the quotient `a / b`. -/
def offset (a b p q : Nat) : Nat := ((q * a : Int) - p * b).natAbs

/-- A fraction with a small enough offset is a multiple of any reduced one whose offset is small
enough for its size. -/
theorem exists_eq_mul_of_offset {a b p q m c : Nat} (reduced : p.Coprime q)
    (apart : 2 ^ 53 * offset a b p q + p * b < 2 ^ 28 * a) (small : m < 2 ^ 25)
    (near : 2 ^ 28 * offset a b m c ≤ b) : ∃ t, c = t * q ∧ m = t * p := by
  have key : (a * ((m * q : Int) - c * p) : Int) =
      m * ((q * a : Int) - p * b) - p * ((c * a : Int) - m * b) := by ring
  have bound : a * ((m * q : Int) - c * p).natAbs ≤ m * offset a b p q + p * offset a b m c := by
    have := congrArg Int.natAbs key
    rw [Int.natAbs_mul, Int.natAbs_natCast] at this
    rw [this]
    refine (Int.natAbs_sub_le _ _).trans ?_
    rw [Int.natAbs_mul, Int.natAbs_mul, Int.natAbs_natCast, Int.natAbs_natCast]
    exact le_refl _
  have less : a * ((m * q : Int) - c * p).natAbs < a := by
    have first := Nat.mul_le_mul_right (offset a b p q) small.le
    have second := Nat.mul_le_mul_left p near
    have third : p * (2 ^ 28 * offset a b m c) = 2 ^ 28 * (p * offset a b m c) := by ring
    omega
  have same : m * q = c * p := by
    have one : ((m * q : Int) - c * p).natAbs < 1 := by
      by_contra large
      have := Nat.mul_le_mul_left a (Nat.le_of_not_lt large)
      omega
    omega
  obtain ⟨t, ht⟩ : p ∣ m := reduced.dvd_of_dvd_mul_right (Dvd.intro_left c same.symm)
  refine ⟨t, ?_, by rw [ht, Nat.mul_comm]⟩
  obtain rfl | positive := Nat.eq_zero_or_pos p
  · -- only `0 / 1` is reduced, and its offset is too large
    have := (Nat.coprime_zero_left q).1 reduced
    subst this
    simp [offset] at apart
    omega
  · apply Nat.eq_of_mul_eq_mul_right positive
    rw [← same, ht]
    ring

/-- The first convergent of the continued fraction of `a / b` whose offset is small enough. The
numbers still to be divided are `num` and `den`, and the last two convergents `p' / q'` and
`p / q`. -/
def convergent (a b : Nat) : Nat → Nat → Nat → Nat → Nat → Nat → Nat → Nat × Nat
  | 0, _, _, _, _, p, q => (p, q)
  | steps + 1, num, den, p', q', p, q =>
    if 2 ^ 28 * offset a b p q ≤ b then (p, q)
    else convergent a b steps den (num % den) p q (num / den * p + p') (num / den * q + q')

/-- Half the gap between singles in the binade behind `s` others, in units of `10 ^ (-150)`. -/
def halfGap (s : Nat) : Nat := Format.single.decimalUnits (2 ^ s)

/-- The exponent of the least power of ten that is almost the gap or more. -/
def gapDigit (s : Nat) : Nat := 106 + (14650 + 30103 * s) / 100000

/-- No power of ten before the digit's is almost the gap, and the fraction is near the quotient of
the digit's power and half the gap. Unless it is equal to it, it has too large a numerator for a
midpoint, but for one. -/
def Separated (s p q : Nat) : Prop :=
  2 ^ 27 * 10 ^ (gapDigit s - 1) < (2 ^ 28 - 1) * halfGap s ∧ p.Coprime q ∧
    2 ^ 53 * offset (10 ^ gapDigit s) (halfGap s) p q + p * halfGap s < 2 ^ 28 * 10 ^ gapDigit s ∧
    (2 ^ 25 ≤ p ∨ offset (10 ^ gapDigit s) (halfGap s) p q = 0 ∨ s = 42 ∧ p = 22841339)

instance (s p q : Nat) : Decidable (Separated s p q) := inferInstanceAs (Decidable (_ ∧ _))

def gapConvergent (s : Nat) : Nat × Nat :=
  convergent (10 ^ gapDigit s) (halfGap s) 80 (10 ^ gapDigit s) (halfGap s) 0 1 1 0

theorem separated_gapConvergent :
    ∀ s < 254, Separated s (gapConvergent s).1 (gapConvergent s).2 := by decide +kernel

/-- A decimal whose last digit counts for almost a gap or more is on a midpoint or not near it, but
for one midpoint. -/
theorem eq_mul_halfGap_of_near {s n m point : Nat} (hs : s < 254) (small : m < 2 ^ 25)
    (coarse : (2 ^ 28 - 1) * halfGap s ≤ 2 ^ 27 * 10 ^ n)
    (near : 2 ^ 28 * ((point * 10 ^ n : Nat) - (m * halfGap s : Nat) : Int).natAbs ≤ halfGap s) :
    point * 10 ^ n = m * halfGap s ∨ s = 42 ∧ m = 22841339 := by
  obtain ⟨finer, reduced, apart, alone⟩ := separated_gapConvergent s hs
  generalize (gapConvergent s).1 = p at *
  generalize (gapConvergent s).2 = q at *
  have digits : gapDigit s ≤ n := by
    by_contra less
    have := Nat.pow_le_pow_right (show 0 < 10 by omega) (show n ≤ gapDigit s - 1 by omega)
    omega
  -- the decimal is a multiple of the digit's power of ten
  have split : point * 10 ^ n = point * 10 ^ (n - gapDigit s) * 10 ^ gapDigit s := by
    rw [Nat.mul_assoc, ← Nat.pow_add, Nat.sub_add_cancel digits]
  rw [split] at near ⊢
  generalize point * 10 ^ (n - gapDigit s) = c at *
  have distance : 2 ^ 28 * offset (10 ^ gapDigit s) (halfGap s) m c ≤ halfGap s := by
    rw [offset]
    exact_mod_cast near
  obtain ⟨t, rfl, rfl⟩ := exists_eq_mul_of_offset reduced apart small distance
  obtain rfl | positive := Nat.eq_zero_or_pos t
  · exact .inl (by simp only [Nat.zero_mul])
  have size : p ≤ t * p := Nat.le_mul_of_pos_left p positive
  obtain large | equal | ⟨binade, rfl⟩ := alone
  · omega
  · left
    have same : q * 10 ^ gapDigit s = p * halfGap s := by
      have := sub_eq_zero.1 (Int.natAbs_eq_zero.1 equal)
      exact_mod_cast this
    rw [Nat.mul_assoc, same, Nat.mul_assoc]
  · right
    have once : t = 1 := by omega
    rw [once, Nat.one_mul]
    exact ⟨binade, rfl⟩

theorem mul_halfGap_lt_of_near {s n k m point : Nat} (hs : s < 254) (odd : k % 2 = 1)
    (small : k < 2 ^ 24) (other : ¬(s = 42 ∧ k = 11420669)) (sides : m = 2 * k - 1 ∨ m = 2 * k + 1)
    (inside : point * 10 ^ n ≠ m * halfGap s)
    (low : 2 * (2 * k * halfGap s) ≤ 2 * (point * 10 ^ n) + 10 ^ n)
    (high : 2 * (point * 10 ^ n) ≤ 2 * (2 * k * halfGap s) + 10 ^ n) :
    m * halfGap s < 2 ^ 53 * ((point * 10 ^ n : Nat) - (m * halfGap s : Nat) : Int).natAbs := by
  by_contra near
  have few : m < 2 ^ 25 := by omega
  have size := Nat.mul_le_mul_right (halfGap s) few.le
  have apart : 2 * k * halfGap s + halfGap s = m * halfGap s ∨
      m * halfGap s + halfGap s = 2 * k * halfGap s := by
    rw [← Nat.succ_mul, ← Nat.succ_mul]
    obtain rfl | rfl := sides
    · exact .inr (by congr 1; omega)
    · exact .inl rfl
  have close :
      2 ^ 28 * ((point * 10 ^ n : Nat) - (m * halfGap s : Nat) : Int).natAbs ≤ halfGap s := by
    omega
  obtain equal | ⟨binade, exception⟩ := eq_mul_halfGap_of_near hs few (by omega) close
  · exact inside equal
  · omega

theorem Format.exists_interval_of_odd (f : Format) [f.Proper] {rank : Nat} (odd : rank % 2 = 1) :
    let half := f.decimalUnits (f.spacing rank)
    ∃ k, k % 2 = 1 ∧ k < 2 * f.fractions ∧ rank = f.shift rank * f.fractions + k ∧
      f.interval rank = ⟨(2 * k - 1) * half, 2 * k * half, (2 * k + 1) * half, false⟩ := by
  obtain ⟨n, small, place, here⟩ := f.exists_eq_mul_spacing rank
  have even := f.two_dvd_fractions.mul_left (f.shift rank)
  refine ⟨n, by omega, small, place, ?_⟩
  have after := f.magnitude_succ rank
  have before := f.magnitude_succ (rank - 1)
  rw [Nat.sub_add_cancel (by omega), f.spacing_pred_of_odd odd] at before
  obtain ⟨k, rfl⟩ := Nat.exists_eq_add_one_of_ne_zero (show n ≠ 0 by omega)
  rw [Nat.succ_mul] at here
  simp only [interval, decimalUnits, ← Nat.mul_assoc, after, here]
  congr 2
  · rw [show 2 * (k + 1) - 1 = 2 * k + 1 by omega]
    linarith
  · ring
  · ring
  · rw [odd]
    rfl

theorem Binary.Finite.exists_near_of_odd {f : Format} [f.Proper] (x : Finite f) (tie : Tie)
    (odd : x.rank % 2 = 1) :
    let i := f.interval x.rank
    ∃ point n : Nat, x.shortest tie = ⟨point, (n : Int) - f.places⟩ ∧ i.Near point n ∧
      point * 10 ^ n ≠ i.lower ∧ point * 10 ^ n ≠ i.upper := by
  intro i
  obtain ⟨k, oddK, _, _, interval⟩ := f.exists_interval_of_odd odd
  have inside := f.interval_contains_center (show 0 < x.rank by omega)
  have middle : i.lower + i.upper = 2 * i.center := by
    simp only [i, interval, ← Nat.add_mul, ← Nat.mul_assoc]
    congr 1
    omega
  obtain ⟨hit, _⟩ := Interval.search_spec inside tie i.coarsest
  have opened : i.closed = false := by simp only [i, interval]
  have strict := ((i.contains_iff _).1 hit).2.2 opened
  exact ⟨_, _, x.shortest_of_pos tie (by omega), Interval.near_search inside middle tie i.coarsest,
    strict.1.symm, strict.2⟩

open Format (single)

theorem Binary.Finite.shift_lt (x : Finite .single) : single.shift x.rank < 254 := by
  have inside := x.rank_lt
  rw [show single.count = 255 * 8388608 by decide] at inside
  rw [Format.shift, show single.fractions = 8388608 by decide]
  omega

/-- The short decimal of a single of odd rank, but for one, is too far from both midpoints for a
double next to it to be on them. -/
theorem Binary.Finite.midpoint_lt_of_odd (x : Finite .single) (odd : x.rank % 2 = 1)
    (other : x.rank ≠ 0x15ae43fd) {j : Nat} (adjacent : j + 1 = x.rank ∨ j = x.rank) :
    single.midpoint j < 2 ^ 53 * |(x.shortest .up).toRat - single.midpoint j| := by
  obtain ⟨k, oddK, small, rank, interval⟩ := single.exists_interval_of_odd odd
  obtain ⟨point, n, shortest, near, notLower, notUpper⟩ := x.exists_near_of_odd .up odd
  change _ = Interval.mk (_ * halfGap (single.shift x.rank)) (_ * halfGap (single.shift x.rank))
    (_ * halfGap (single.shift x.rank)) false at interval
  rw [show single.fractions = 8388608 by decide] at small rank
  have lower := single.lower_interval_div (show 0 < x.rank by omega)
  have upper := single.upper_interval_div x.rank
  rw [Interval.Near, interval] at near
  rw [interval] at lower upper notLower notUpper
  obtain ⟨m, bound, sides, apart⟩ : ∃ m, single.midpoint j =
      (m * halfGap (single.shift x.rank) : Nat) / 10 ^ single.places ∧
      (m = 2 * k - 1 ∨ m = 2 * k + 1) ∧ point * 10 ^ n ≠ m * halfGap (single.shift x.rank) := by
    obtain before | rfl := adjacent
    · exact ⟨_, by rw [lower, ← before, Nat.add_sub_cancel], .inl rfl, notLower⟩
    · exact ⟨_, upper.symm, .inr rfl, notUpper⟩
  have far := mul_halfGap_lt_of_near x.shift_lt oddK (by omega) (by omega) sides apart near.2 near.1
  have scale : (0 : ℚ) < 10 ^ single.places := by positivity
  have distance : |((point * 10 ^ n : Nat) : ℚ) - (m * halfGap (single.shift x.rank) : Nat)| =
      ((point * 10 ^ n : Nat) - (m * halfGap (single.shift x.rank) : Nat) : Int).natAbs := by
    rw [Nat.cast_natAbs, Int.cast_abs, Int.cast_sub, Int.cast_natCast, Int.cast_natCast]
  rw [shortest, Decimal.toRat_sub_places, bound, ← sub_div, abs_div, abs_of_pos scale,
    ← mul_div_assoc, div_lt_div_iff_of_pos_right scale, distance]
  exact_mod_cast far

end Untyped
