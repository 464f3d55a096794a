import Mathlib
import Untyped.Proofs.Binary.Closeness
import Untyped.Proofs.Decimal.Shortest

/-! How the short decimal of a datum stands among the other decimals that round to it: none has its
last digit further left, the two rules for ties differ only on ties, and where the bounds are as far
from the center, no point of its grid is nearer. -/
namespace Untyped

namespace Interval

variable {i : Interval}

/-- The rules for ties choose alike, unless the center is halfway between two points: then one rule
chooses the upper point, and the other the lower one where that is even. -/
theorem gridPoint?_tie (i : Interval) (n : Nat) :
    i.gridPoint? .up n = i.gridPoint? .even n ∨
      ∃ below, below % 2 = 0 ∧ i.gridPoint? .up n = some (below + 1) ∧
        i.gridPoint? .even n = some below ∧ 2 * i.center = (2 * below + 1) * 10 ^ n := by
  have whole := Nat.div_add_mod' i.center (10 ^ n)
  unfold gridPoint?
  simp only [Nat.pow_eq]
  split
  next =>
    split_ifs with low high
    · exact .inl rfl
    · exact .inl rfl
    · obtain even | odd := Nat.mod_two_eq_zero_or_one (i.center / 10 ^ n)
      · refine .inr ⟨i.center / 10 ^ n, even, rfl, by rw [even, Nat.add_zero], ?_⟩
        rw [Nat.add_mul, Nat.mul_assoc, Nat.one_mul]
        omega
      · exact .inl (by rw [odd])
  next => exact .inl rfl
  next => exact .inl rfl
  next => exact .inl rfl

theorem search_tie (i : Interval) (n : Nat) :
    i.search .up n = i.search .even n ∨
      ∃ below m, below % 2 = 0 ∧ i.search .up n = (below + 1, m) ∧ i.search .even n = (below, m) ∧
        2 * i.center = (2 * below + 1) * 10 ^ m := by
  induction n with
  | zero => exact .inl rfl
  | succ n ih =>
    rw [search, search]
    obtain same | ⟨below, lower, up, even, halfway⟩ := i.gridPoint?_tie (n + 1)
    · rw [same]
      cases i.gridPoint? .even (n + 1) with
      | some point => exact .inl rfl
      | none => exact ih
    · rw [up, even]
      exact .inr ⟨below, n + 1, lower, rfl, rfl, halfway⟩

def Near (i : Interval) (point n : Nat) : Prop :=
  2 * (point * 10 ^ n) ≤ 2 * i.center + 10 ^ n ∧ 2 * i.center ≤ 2 * (point * 10 ^ n) + 10 ^ n

variable (inside : i.contains i.center) (middle : i.lower + i.upper = 2 * i.center)

include inside middle

theorem near_of_gridPoint? {tie : Tie} {n point : Nat} (h : i.gridPoint? tie n = some point) :
    i.Near point n := by
  have whole := Nat.div_add_mod' i.center (10 ^ n)
  have rest := Nat.mod_lt i.center (show 0 < 10 ^ n from Nat.pow_pos (by omega))
  have within := (i.contains_iff i.center).1 inside
  unfold gridPoint? at h
  simp only [Nat.pow_eq] at h
  unfold Near
  have next : (i.center / 10 ^ n + 1) * 10 ^ n = i.center / 10 ^ n * 10 ^ n + 10 ^ n :=
    Nat.succ_mul _ _
  -- the bounds are equally far from the center, so that a neighbour outside them is the farther one
  split at h
  next =>
    split_ifs at h
    · cases h
      omega
    · cases h
      omega
    · have sides : point = i.center / 10 ^ n ∨ point = i.center / 10 ^ n + 1 := by
        cases tie <;> cases h <;> omega
      obtain rfl | rfl := sides <;> omega
  next below above =>
    cases h
    rw [contains_iff] at below
    have beyond := mt (i.contains_iff _).2 (by rw [above]; decide)
    omega
  next below above =>
    cases h
    rw [contains_iff] at above
    have beyond := mt (i.contains_iff _).2 (by rw [below]; decide)
    omega
  next => cases h

theorem near_search (tie : Tie) (n : Nat) : i.Near (i.search tie n).1 (i.search tie n).2 := by
  induction n with
  | zero =>
    rw [search, Near, pow_zero, Nat.mul_one]
    omega
  | succ n ih =>
    rw [search]
    cases h : i.gridPoint? tie (n + 1) with
    | some point => exact near_of_gridPoint? inside middle h
    | none => exact ih

end Interval

namespace Format

variable {f : Format}

theorem center_interval_div (rank : Nat) :
    ((f.interval rank).center : ℚ) / 10 ^ f.places = f.value rank := by
  change (f.decimalUnits (2 * f.magnitude rank) : ℚ) / _ = _
  rw [f.decimalUnits_div, value, Nat.cast_mul, Nat.cast_two, mul_div_mul_left _ _ two_ne_zero]

theorem contains_of_roundsTo {rank point : Nat} (positive : 0 < rank)
    (h : f.RoundsTo (point / 10 ^ f.places) rank) : (f.interval rank).contains point := by
  have scale : (0 : ℚ) < 10 ^ f.places := by positivity
  have upper := h.upper
  have lower := h.lower positive
  rw [← upper_interval_div, div_lt_div_iff_of_pos_right scale, div_left_inj' scale.ne', Nat.cast_lt,
    Nat.cast_inj] at upper
  rw [← f.lower_interval_div positive, div_lt_div_iff_of_pos_right scale, div_left_inj' scale.ne',
    Nat.cast_lt, Nat.cast_inj] at lower
  rw [Interval.contains_iff]
  refine ⟨by omega, by omega, fun opened => ?_⟩
  have odd : rank % 2 ≠ 0 := by simpa [interval] using opened
  omega

theorem toRat_eq_of_gap_lt {rank : Nat} (positive : 0 < rank) {d e : Decimal}
    (hd : f.RoundsTo d.toRat rank) (he : f.RoundsTo e.toRat rank) (le : d.exponent ≤ e.exponent)
    (coarse : f.gap rank < 10 ^ d.exponent) : e.toRat = d.toRat := by
  obtain ⟨n, hn⟩ := Int.eq_ofNat_of_zero_le (show 0 ≤ e.exponent - d.exponent by omega)
  have unit : (0 : ℚ) < 10 ^ d.exponent := by positivity
  have multiple : e.toRat = (e.coefficient * 10 ^ n : Nat) * 10 ^ d.exponent := by
    rw [Decimal.toRat, show e.exponent = n + d.exponent by omega, zpow_add₀ (by norm_num),
      zpow_natCast]
    push_cast
    ring
  -- both are between the midpoints to the neighbours, which are one gap apart at most
  have before := f.value_succ (rank - 1)
  rw [Nat.sub_add_cancel positive] at before
  have narrower := f.gap_mono (Nat.sub_le rank 1)
  have dUpper := hd.le_midpoint
  have dLower := hd.midpoint_le positive
  have eUpper := he.le_midpoint
  have eLower := he.midpoint_le positive
  rw [midpoint] at dUpper dLower eUpper eLower
  have apart : |e.toRat - d.toRat| < 10 ^ d.exponent := abs_lt.2 ⟨by linarith, by linarith⟩
  rw [multiple, Decimal.toRat, ← sub_mul, abs_mul, abs_of_pos unit,
    mul_lt_iff_lt_one_left unit] at apart
  have whole : |((e.coefficient * 10 ^ n : Nat) : Int) - d.coefficient| < 1 := by
    exact_mod_cast apart
  have same : e.coefficient * 10 ^ n = d.coefficient := by
    have := Int.abs_lt_one_iff.1 whole
    omega
  rw [multiple, same, Decimal.toRat]

end Format

namespace Binary.Finite

variable {f : Format} (x : Finite f)

theorem shortest_of_pos (tie : Tie) (h : 0 < x.rank) :
    let i := f.interval x.rank
    x.shortest tie = ⟨(i.search tie i.coarsest).1, (i.search tie i.coarsest).2 - f.places⟩ :=
  if_neg (by rw [isZero, beq_iff_eq]; omega)

/-- No decimal that rounds to the datum has its last digit further left than the short one. -/
theorem exponent_le_shortest (tie : Tie) (h : 0 < x.rank) {d : Decimal}
    (rounds : f.RoundsTo d.toRat x.rank) : d.exponent ≤ (x.shortest tie).exponent := by
  obtain ⟨_, _, coarser⟩ :=
    Interval.search_spec (f.interval_contains_center h) tie (f.interval x.rank).coarsest
  rw [x.shortest_of_pos tie h]
  dsimp only
  set n := ((f.interval x.rank).search tie (f.interval x.rank).coarsest).2
  by_contra further
  obtain ⟨m, hm⟩ := Int.eq_ofNat_of_zero_le (show 0 ≤ d.exponent + f.places by omega)
  have point : d.toRat = (d.coefficient * 10 ^ m : Nat) / 10 ^ f.places := by
    rw [← Decimal.toRat_sub_places, show (m : Int) - f.places = d.exponent by omega]
  rw [point] at rounds
  have hit := f.contains_of_roundsTo h rounds
  have bounds := (Interval.contains_iff _ _).1 hit
  have positive : 0 < d.coefficient := by
    by_contra zero
    rw [Nat.eq_zero_of_not_pos zero, Nat.zero_mul] at bounds
    have := f.lower_interval_pos h
    omega
  have least : 10 ^ m ≤ d.coefficient * 10 ^ m := Nat.le_mul_of_pos_left _ positive
  have beyond := (f.interval x.rank).upper_lt_coarsest
  have inside : m < (f.interval x.rank).coarsest :=
    (Nat.pow_lt_pow_iff_right (by omega)).1
      (show 10 ^ m < 10 ^ (f.interval x.rank).coarsest by omega)
  exact coarser m (by omega) inside.le _ hit

theorem toRat_shortest_eq (tie : Tie) (h : 0 < x.rank) {d : Decimal}
    (rounds : f.RoundsTo d.toRat x.rank) (coarse : f.gap x.rank < 10 ^ d.exponent) :
    (x.shortest tie).toRat = d.toRat :=
  f.toRat_eq_of_gap_lt h rounds (x.roundsTo_shortest tie)
    (x.exponent_le_shortest tie h rounds) coarse

/-- The two rules for ties give the same decimal, unless the datum is halfway between two: then one
rule gives the upper, and the other the lower, whose last digit is even. -/
theorem shortest_tie :
    x.shortest .up = x.shortest .even ∨
      ∃ below exponent, below % 2 = 0 ∧ x.shortest .up = ⟨below + 1, exponent⟩ ∧
        x.shortest .even = ⟨below, exponent⟩ ∧
        2 * f.value x.rank = (2 * below + 1) * 10 ^ exponent := by
  obtain zero | positive := Nat.eq_zero_or_pos x.rank
  · rw [x.shortest_zero .up zero, x.shortest_zero .even zero]
    exact .inl rfl
  rw [x.shortest_of_pos .up positive, x.shortest_of_pos .even positive]
  obtain same | ⟨below, m, lower, up, even, halfway⟩ :=
    (f.interval x.rank).search_tie (f.interval x.rank).coarsest
  · rw [same]
    exact .inl rfl
  · refine .inr ⟨below, m - f.places, lower, by rw [up], by rw [even], ?_⟩
    have halfway : (2 * (f.interval x.rank).center : ℚ) = (2 * below + 1) * 10 ^ m := by
      exact_mod_cast halfway
    rw [← f.center_interval_div, ← mul_div_assoc, halfway, zpow_sub₀ (by norm_num), zpow_natCast,
      zpow_natCast, mul_div_assoc]

end Binary.Finite

end Untyped
