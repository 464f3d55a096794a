import Mathlib
import Untyped.Decimal.Shortest
import Untyped.Proofs.Binary.Nearest

/-! The short decimal of a binary datum reads back as the datum. Its coefficient and its exponent
are bounded, because on the next coarser grid no point is between the bounds. -/
namespace Untyped

namespace Interval

/-! ### Grid points -/

theorem contains_iff (i : Interval) (point : Nat) :
    i.contains point ↔ i.lower ≤ point ∧ point ≤ i.upper ∧
      (i.closed = false → i.lower ≠ point ∧ point ≠ i.upper) := by
  rw [contains]
  cases i.closed
  · simp only [Bool.false_eq_true, if_false, decide_eq_true_eq, true_implies]
    omega
  · simp

section Search

variable {i : Interval}

theorem contains_between {a b point : Nat} (ha : i.contains a) (hb : i.contains b) (low : a ≤ point)
    (high : point ≤ b) : i.contains point := by
  rw [contains_iff] at ha hb ⊢
  refine ⟨by omega, by omega, fun h => ?_⟩
  have := ha.2.2 h
  have := hb.2.2 h
  omega

theorem contains_gridPoint {tie : Tie} {n point : Nat} (h : i.gridPoint? tie n = some point) :
    i.contains (point * 10 ^ n) := by
  unfold gridPoint? at h
  simp only [Nat.pow_eq] at h
  split at h
  next below above =>
    split_ifs at h
    · cases h
      exact below
    · cases h
      exact above
    · cases tie
      · cases h
        exact above
      · cases h
        obtain even | odd := Nat.mod_two_eq_zero_or_one (i.center / 10 ^ n)
        · rwa [even, Nat.add_zero]
        · rwa [odd]
  next below _ =>
    cases h
    exact below
  next _ above =>
    cases h
    exact above
  next => cases h

variable (inside : i.contains i.center)

include inside

theorem not_contains_of_gridPoint?_eq_none {tie : Tie} {n : Nat} (h : i.gridPoint? tie n = none)
    (point : Nat) : ¬i.contains (point * 10 ^ n) := by
  intro hit
  have step : 0 < 10 ^ n := Nat.pow_pos (by omega)
  have below := Nat.div_mul_le_self i.center (10 ^ n)
  have above : i.center < (i.center / 10 ^ n + 1) * 10 ^ n := by
    rw [Nat.mul_comm]
    exact Nat.lt_mul_div_succ i.center step
  unfold gridPoint? at h
  simp only [Nat.pow_eq] at h
  split at h
  next => split_ifs at h; cases tie <;> cases h
  next => cases h
  next => cases h
  next notBelow notAbove =>
    obtain high | low := Nat.lt_or_ge (i.center / 10 ^ n) point
    · have := contains_between inside hit above.le (Nat.mul_le_mul_right _ high)
      rw [this] at notAbove
      cases notAbove
    · have := contains_between hit inside (Nat.mul_le_mul_right _ low) below
      rw [this] at notBelow
      cases notBelow

/-- The search ends on a point that may stand for the center, and passes over no grid that has
one. -/
theorem search_spec (tie : Tie) (n : Nat) :
    i.contains ((i.search tie n).1 * 10 ^ (i.search tie n).2) ∧ (i.search tie n).2 ≤ n ∧
      ∀ m, (i.search tie n).2 < m → m ≤ n → ∀ point, ¬i.contains (point * 10 ^ m) := by
  induction n with
  | zero =>
    refine ⟨?_, Nat.le_refl 0, fun m above le => absurd above (Nat.not_lt_of_le le)⟩
    rw [search, pow_zero, Nat.mul_one]
    exact inside
  | succ n ih =>
    rw [search]
    cases h : i.gridPoint? tie (n + 1) with
    | some point =>
      exact ⟨contains_gridPoint h, Nat.le_refl _, fun m above le => absurd above (Nat.not_lt_of_le le)⟩
    | none =>
      obtain ⟨hit, le, coarser⟩ := ih
      refine ⟨hit, Nat.le_succ_of_le le, fun m above le => ?_⟩
      obtain rfl | lt := Nat.eq_or_lt_of_le le
      · exact not_contains_of_gridPoint?_eq_none inside h
      · exact coarser m above (Nat.le_of_lt_succ lt)

omit inside in
theorem upper_lt_coarsest (i : Interval) : i.upper < 10 ^ i.coarsest := by
  have hlog : i.upper.log2 + 1 ≤ 13 * (i.upper.log2 / 13 + 1) := by omega
  calc i.upper < 2 ^ (i.upper.log2 + 1) := Nat.lt_log2_self
    _ ≤ 2 ^ (13 * (i.upper.log2 / 13 + 1)) := Nat.pow_le_pow_right (by omega) hlog
    _ = (2 ^ 13) ^ (i.upper.log2 / 13 + 1) := Nat.pow_mul 2 13 _
    _ ≤ (10 ^ 4) ^ (i.upper.log2 / 13 + 1) := Nat.pow_le_pow_left (by omega) _
    _ = 10 ^ i.coarsest := (Nat.pow_mul 10 4 _).symm

theorem search_coarsest (positive : 0 < i.lower) (tie : Tie) :
    let found := i.search tie i.coarsest
    i.contains (found.1 * 10 ^ found.2) ∧ 0 < found.1 ∧
      i.upper ≤ i.lower + 10 ^ (found.2 + 1) := by
  intro found
  obtain ⟨hit, le, coarser⟩ : i.contains (found.1 * 10 ^ found.2) ∧ found.2 ≤ i.coarsest ∧
      ∀ m, found.2 < m → m ≤ i.coarsest → ∀ point, ¬i.contains (point * 10 ^ m) :=
    search_spec inside tie i.coarsest
  have bounds := (i.contains_iff _).1 hit
  have nonzero : 0 < found.1 := by
    by_contra zero
    have : found.1 * 10 ^ found.2 = 0 := by rw [Nat.eq_zero_of_not_pos zero, Nat.zero_mul]
    omega
  have finer : found.2 < i.coarsest := by
    obtain lt | same := Nat.lt_or_eq_of_le le
    · exact lt
    · have : 10 ^ i.coarsest ≤ found.1 * 10 ^ found.2 := by
        rw [same]
        exact Nat.le_mul_of_pos_left _ nonzero
      have := i.upper_lt_coarsest
      omega
  refine ⟨hit, nonzero, ?_⟩
  by_contra long
  -- the first grid point behind the lower bound would be found
  have step : 0 < 10 ^ (found.2 + 1) := Nat.pow_pos (by omega)
  have below := Nat.div_mul_le_self i.lower (10 ^ (found.2 + 1))
  have above : i.lower < (i.lower / 10 ^ (found.2 + 1) + 1) * 10 ^ (found.2 + 1) := by
    rw [Nat.mul_comm]
    exact Nat.lt_mul_div_succ i.lower step
  apply coarser (found.2 + 1) (Nat.lt_succ_self _) finer (i.lower / 10 ^ (found.2 + 1) + 1)
  rw [contains_iff]
  rw [Nat.add_mul, Nat.one_mul] at above ⊢
  exact ⟨by omega, by omega, fun _ => by omega⟩

end Search

end Interval

def Decimal.toRat (d : Decimal) : ℚ := d.coefficient * 10 ^ d.exponent

theorem Decimal.toRat_nonneg (d : Decimal) : 0 ≤ d.toRat := by
  rw [toRat]
  positivity

theorem Decimal.toRat_sub_places (point n places : Nat) :
    (Decimal.mk point (n - places)).toRat = (point * 10 ^ n : Nat) / 10 ^ places := by
  rw [toRat, zpow_sub₀ (by norm_num), zpow_natCast, zpow_natCast, ← mul_div_assoc]
  push_cast
  rfl

/-! ### The interval of a rank -/

namespace Format

variable (f : Format)

theorem decimalUnits_div (halves : Nat) :
    (f.decimalUnits halves : ℚ) / 10 ^ f.places = halves / (2 * 2 ^ f.scale) := by
  have ten : (10 : ℚ) ^ f.places = 2 ^ f.places * 5 ^ f.places := by rw [← mul_pow]; norm_num
  rw [decimalUnits, Nat.pow_eq, ten, places]
  push_cast
  rw [pow_succ 2]
  field_simp

theorem upper_interval_div (rank : Nat) :
    ((f.interval rank).upper : ℚ) / 10 ^ f.places = f.midpoint rank := by
  rw [midpoint_eq]
  exact f.decimalUnits_div _

theorem lower_interval_div {rank : Nat} (h : 0 < rank) :
    ((f.interval rank).lower : ℚ) / 10 ^ f.places = f.midpoint (rank - 1) := by
  rw [midpoint_eq, Nat.sub_add_cancel h]
  exact f.decimalUnits_div _

theorem decimalUnits_strictMono : StrictMono f.decimalUnits := by
  intro a b h
  exact Nat.mul_lt_mul_of_pos_right h (Nat.pow_pos (by omega))

variable {rank : Nat} (positive : 0 < rank)

include positive

theorem lower_interval_pos : 0 < (f.interval rank).lower := by
  have := f.magnitude_strictMono positive
  exact Nat.mul_pos (by omega) (Nat.pow_pos (by omega))

theorem interval_contains_center : (f.interval rank).contains (f.interval rank).center := by
  have before := f.magnitude_strictMono (show rank - 1 < rank by omega)
  have after := f.magnitude_strictMono (Nat.lt_add_one rank)
  have low : (f.interval rank).lower < (f.interval rank).center :=
    f.decimalUnits_strictMono (by omega)
  have high : (f.interval rank).center < (f.interval rank).upper :=
    f.decimalUnits_strictMono (by omega)
  rw [Interval.contains_iff]
  exact ⟨low.le, high.le, fun _ => ⟨low.ne, high.ne⟩⟩

theorem roundsTo_of_contains {point : Nat} (h : (f.interval rank).contains point) :
    f.RoundsTo (point / 10 ^ f.places) rank := by
  obtain ⟨low, high, opened⟩ := ((f.interval rank).contains_iff point).1 h
  have scale : (0 : ℚ) < 10 ^ f.places := by positivity
  have even : (f.interval rank).closed = false ∨ rank % 2 = 0 := by
    cases hc : (f.interval rank).closed
    · exact .inl rfl
    · exact .inr (by simpa [interval] using hc)
  constructor
  · rw [← upper_interval_div, div_lt_div_iff_of_pos_right scale, div_left_inj' scale.ne', Nat.cast_lt,
      Nat.cast_inj]
    obtain strict | even := even
    · exact .inl (Nat.lt_of_le_of_ne high (opened strict).2)
    · exact (Nat.lt_or_eq_of_le high).imp_right fun same => ⟨same, even⟩
  · intro _
    rw [← f.lower_interval_div positive, div_lt_div_iff_of_pos_right scale,
      div_left_inj' scale.ne', Nat.cast_lt, Nat.cast_inj]
    obtain strict | even := even
    · exact .inl (Nat.lt_of_le_of_ne low (opened strict).1)
    · exact (Nat.lt_or_eq_of_le low).imp_right fun same => ⟨same.symm, even⟩

theorem upper_interval_le :
    (f.interval rank).upper ≤
      4 * f.fractions * ((f.interval rank).upper - (f.interval rank).lower) := by
  have width : f.spacing rank ≤ f.magnitude (rank + 1) - f.magnitude (rank - 1) := by
    have := f.magnitude_succ rank
    have := f.magnitude_strictMono (show rank - 1 < rank by omega)
    omega
  have top := f.magnitude_succ_le rank
  have step := f.magnitude_strictMono (Nat.lt_add_one rank)
  have upper : (f.interval rank).upper ≤ f.decimalUnits (4 * f.fractions * f.spacing rank) :=
    f.decimalUnits_strictMono.monotone (by linarith)
  have apart : f.decimalUnits (f.spacing rank) ≤
      (f.interval rank).upper - (f.interval rank).lower := by
    have := f.decimalUnits_strictMono.monotone width
    refine this.trans (le_of_eq ?_)
    simp only [interval, decimalUnits, ← Nat.sub_mul]
    congr 1
    omega
  refine upper.trans (le_trans (le_of_eq ?_) (Nat.mul_le_mul_left _ apart))
  simp only [decimalUnits, Nat.mul_assoc]

omit positive in
theorem interval_width (rank : Nat) :
    f.decimalUnits 2 + (f.interval rank).lower ≤ (f.interval rank).upper ∨ rank = 0 := by
  obtain rfl | positive := Nat.eq_zero_or_pos rank
  · exact .inr rfl
  · left
    have before := f.magnitude_strictMono (show rank - 1 < rank by omega)
    have after := f.magnitude_strictMono (Nat.lt_add_one rank)
    simp only [interval, decimalUnits, ← Nat.add_mul]
    exact Nat.mul_le_mul_right _ (by omega)

end Format

/-! ### The short decimal of a datum -/

namespace Binary.Finite

variable {f : Format} (x : Finite f) (tie : Tie)

theorem shortest_zero (h : x.rank = 0) : x.shortest tie = ⟨0, 0⟩ :=
  if_pos (beq_iff_eq.2 h)

theorem exists_shortest (h : 0 < x.rank) :
    ∃ point n : Nat, x.shortest tie = ⟨point, (n : Int) - f.places⟩ ∧
      (f.interval x.rank).contains (point * 10 ^ n) ∧ 0 < point ∧
      (f.interval x.rank).upper ≤ (f.interval x.rank).lower + 10 ^ (n + 1) := by
  have inside := f.interval_contains_center h
  have found := Interval.search_coarsest inside (f.lower_interval_pos h) tie
  exact ⟨_, _, if_neg (by rw [isZero, beq_iff_eq]; omega), found⟩

theorem coefficient_shortest_pos (h : 0 < x.rank) : 0 < (x.shortest tie).coefficient := by
  obtain ⟨point, n, hd, _, positive, _⟩ := x.exists_shortest tie h
  rwa [hd]

theorem shortest_nonzero :
    0 < (x.shortest tie).coefficient ∨ (x.shortest tie).exponent = 0 := by
  obtain zero | positive := Nat.eq_zero_or_pos x.rank
  · rw [x.shortest_zero tie zero]
    exact .inr rfl
  · exact .inl (x.coefficient_shortest_pos tie positive)

theorem coefficient_shortest_le : (x.shortest tie).coefficient ≤ 40 * f.fractions := by
  obtain zero | positive := Nat.eq_zero_or_pos x.rank
  · rw [x.shortest_zero tie zero]
    exact Nat.zero_le _
  · obtain ⟨point, n, hd, hit, _, long⟩ := x.exists_shortest tie positive
    have below := (Interval.contains_iff _ _).1 hit
    have bounded := f.upper_interval_le positive
    rw [hd]
    apply Nat.le_of_mul_le_mul_right _ (show 0 < 10 ^ n from Nat.pow_pos (by omega))
    calc point * 10 ^ n ≤ (f.interval x.rank).upper := below.2.1
      _ ≤ 4 * f.fractions * 10 ^ (n + 1) :=
        bounded.trans (Nat.mul_le_mul_left _ (Nat.sub_le_iff_le_add'.2 long))
      _ = 40 * f.fractions * 10 ^ n := by ring

theorem toRat_shortest (h : 0 < x.rank) :
    ∃ point : Nat, (f.interval x.rank).contains point ∧
      (x.shortest tie).toRat = point / 10 ^ f.places := by
  obtain ⟨point, n, hd, hit, _, _⟩ := x.exists_shortest tie h
  exact ⟨_, hit, by rw [hd, Decimal.toRat_sub_places]⟩

/-- The short decimal of a datum rounds to it. -/
theorem roundsTo_shortest : f.RoundsTo (x.shortest tie).toRat x.rank := by
  obtain zero | positive := Nat.eq_zero_or_pos x.rank
  · rw [x.shortest_zero tie zero, zero]
    constructor
    · left
      have := f.value_lt_midpoint 0
      rw [f.value_zero] at this
      simpa [Decimal.toRat] using this
    · exact fun h => absurd h (Nat.lt_irrefl 0)
  · obtain ⟨point, hit, hd⟩ := x.toRat_shortest tie positive
    rw [hd]
    exact f.roundsTo_of_contains positive hit

variable {x tie} in
/-- Data of one sign are the same if their short decimals are: one number does not round to two. -/
theorem eq_of_toRat_shortest_eq [f.Proper] {y : Finite f} (sign : x.negative = y.negative)
    (same : (x.shortest tie).toRat = (y.shortest tie).toRat) : x = y := by
  have here := ofRat_of_roundsTo (x.shortest tie).toRat_nonneg (x.roundsTo_shortest tie)
  have there := ofRat_of_roundsTo (y.shortest tie).toRat_nonneg (y.roundsTo_shortest tie)
  rw [← sign, ← same, here] at there
  exact Binary.finite.inj there

theorem midpoint_zero_le_shortest (h : 0 < x.rank) : f.midpoint 0 ≤ (x.shortest tie).toRat :=
  (f.midpoint_strictMono.monotone (Nat.zero_le _)).trans ((x.roundsTo_shortest tie).midpoint_le h)

theorem gap_le_exponent_shortest (h : 0 < x.rank) :
    f.gap 0 ≤ 10 ^ ((x.shortest tie).exponent + 1) := by
  obtain ⟨point, n, hd, _, _, long⟩ := x.exists_shortest tie h
  have width : f.decimalUnits 2 ≤ 10 ^ (n + 1) := by
    have := (f.interval_width x.rank).resolve_right (by omega)
    omega
  have least : f.gap 0 = f.decimalUnits 2 / 10 ^ f.places := by
    rw [f.decimalUnits_div, f.gap_zero, Nat.cast_ofNat, ← div_div, div_self two_ne_zero]
  rw [hd, least, show (n : Int) - f.places + 1 = ((n + 1 : Nat) : Int) - f.places by push_cast; ring,
    zpow_sub₀ (by norm_num), zpow_natCast, zpow_natCast]
  gcongr
  exact_mod_cast width

theorem exponent_shortest_lt (h : 0 < x.rank) :
    (10 : ℚ) ^ (x.shortest tie).exponent < f.value f.count := by
  have one : (1 : ℚ) ≤ (x.shortest tie).coefficient :=
    Nat.one_le_cast.2 (x.coefficient_shortest_pos tie h)
  have digit : (0 : ℚ) ≤ 10 ^ (x.shortest tie).exponent := by positivity
  calc (10 : ℚ) ^ (x.shortest tie).exponent ≤ (x.shortest tie).toRat :=
        le_mul_of_one_le_left digit one
    _ ≤ f.midpoint x.rank := (x.roundsTo_shortest tie).le_midpoint
    _ < f.value (x.rank + 1) := f.midpoint_lt_value x.rank
    _ ≤ f.value f.count := f.value_strictMono.monotone x.rank_lt

end Binary.Finite

end Untyped
