import Mathlib
import Untyped.Proofs.Decimal.Grid
import Untyped.Proofs.Json.Integers
import Untyped.Value.Show

/-! Whole numbers as they are displayed. As far as the data of a format are at most one apart, and one
step further, no shorter decimal than its own digits rounds to a whole number. -/
namespace Untyped
open Binary (Finite)
open Json.Number (writeInt)

namespace Interval

variable {i : Interval} (inside : i.contains i.center)

include inside

theorem gridPoint?_of_dvd {n : Nat} (tie : Tie) (onGrid : 10 ^ n ∣ i.center) :
    i.gridPoint? tie n = some (i.center / 10 ^ n) := by
  have step : 0 < 10 ^ n := Nat.pow_pos (by omega)
  have hit : i.contains (i.center / 10 ^ n * 10 ^ n) := by rwa [Nat.div_mul_cancel onGrid]
  have rest : i.center % 10 ^ n = 0 := Nat.mod_eq_zero_of_dvd onGrid
  unfold gridPoint?
  simp only [Nat.pow_eq, hit, rest, Nat.mul_zero, step, if_true]
  split <;> simp_all

theorem search_of_dvd (tie : Tie) {n : Nat} (onGrid : 10 ^ (i.search tie n).2 ∣ i.center) :
    (i.search tie n).1 * 10 ^ (i.search tie n).2 = i.center := by
  induction n with
  | zero => rw [search, pow_zero, Nat.mul_one]
  | succ n ih =>
    rw [search] at onGrid ⊢
    cases found : i.gridPoint? tie (n + 1) with
    | some point =>
      rw [found] at onGrid
      dsimp only at onGrid ⊢
      rw [gridPoint?_of_dvd inside tie onGrid] at found
      rw [← Option.some.inj found, Nat.div_mul_cancel onGrid]
    | none =>
      rw [found] at onGrid
      exact ih onGrid

end Interval

namespace Format

variable {f : Format} {rank : Nat}

theorem gap_le_one (h : f.value rank < 2 * f.fractions) : f.gap rank ≤ 1 := by
  have fractions : (0 : ℚ) < f.fractions := Nat.cast_pos.2 f.fractions_pos
  rw [gap, div_le_one f.scale_pos]
  obtain few | many := Nat.lt_or_ge rank f.fractions
  · rw [spacing, shift, Nat.div_eq_of_lt few, Nat.zero_sub, pow_zero, Nat.cast_one]
    exact one_le_pow₀ one_le_two
  · have short : f.gap rank < 2 := by
      have := (f.fractions_mul_gap_le many).trans_lt h
      rw [mul_comm 2] at this
      exact lt_of_mul_lt_mul_left this fractions.le
    rw [gap, div_lt_iff₀ f.scale_pos, ← pow_succ', spacing] at short
    have shift : f.shift rank < f.scale + 1 :=
      (Nat.pow_lt_pow_iff_right (show 1 < 2 by omega)).1 (by exact_mod_cast short)
    exact_mod_cast Nat.pow_le_pow_right (show 0 < 2 by omega) (Nat.le_of_lt_succ shift)

theorem gap_le_two (h : f.value rank ≤ 2 * f.fractions) : f.gap rank ≤ 2 := by
  have fractions : (0 : ℚ) < f.fractions := Nat.cast_pos.2 f.fractions_pos
  obtain few | many := Nat.lt_or_ge rank f.fractions
  · have inside := (f.value_strictMono few).trans_le f.value_fractions_le_one
    have one : (1 : ℚ) ≤ f.fractions := Nat.one_le_cast.2 f.fractions_pos
    exact (gap_le_one (by linarith)).trans one_le_two
  · have := (f.fractions_mul_gap_le many).trans h
    rw [mul_comm 2] at this
    exact le_of_mul_le_mul_left this fractions

/-- A whole number that rounds to another one is that one, or the next one where the data begin to be
two apart. -/
theorem eq_of_roundsTo_whole {m n : Nat} (positive : 0 < rank) (whole : f.value rank = m)
    (small : m ≤ 2 * f.fractions) (rounds : f.RoundsTo n rank) :
    n = m ∨ (n = m + 1 ∧ m = 2 * f.fractions) := by
  have most : (m : ℚ) ≤ 2 * f.fractions := by exact_mod_cast small
  have before := f.value_succ (rank - 1)
  rw [Nat.sub_add_cancel positive, whole] at before
  have lower : (m : ℚ) < n + 1 := by
    have below := rounds.midpoint_le positive
    have apart := f.gap_pos (rank - 1)
    have near : f.gap (rank - 1) ≤ 1 := gap_le_one (by linarith)
    rw [midpoint] at below
    linarith
  have upper := rounds.le_midpoint
  rw [midpoint, whole] at upper
  have least : m ≤ n := Nat.le_of_lt_succ (by exact_mod_cast lower)
  obtain inside | last := Nat.lt_or_eq_of_le small
  · have near : f.gap rank ≤ 1 := gap_le_one (by rw [whole]; exact_mod_cast inside)
    have : n < m + 1 := by exact_mod_cast (by linarith : (n : ℚ) < m + 1)
    omega
  · have near : f.gap rank ≤ 2 := gap_le_two (whole.trans_le most)
    have : n ≤ m + 1 := by exact_mod_cast (by linarith : (n : ℚ) ≤ m + 1)
    omega

end Format

/-- The short decimal of a whole number is that number, and has no fraction. -/
theorem Binary.Finite.shortest_of_whole {f : Format} [f.Proper] (x : Finite f) (tie : Tie) {m : Nat}
    (whole : f.value x.rank = m) (small : m ≤ 2 * f.fractions) :
    0 ≤ (x.shortest tie).exponent ∧ (x.shortest tie).toRat = m := by
  obtain zero | positive := Nat.eq_zero_or_pos x.rank
  · rw [zero, f.value_zero] at whole
    rw [x.shortest_zero tie zero, ← whole]
    simp [Decimal.toRat]
  have rounds := x.roundsTo_shortest tie
  have itself : f.RoundsTo (Decimal.mk m 0).toRat x.rank := by
    rw [Decimal.toRat, zpow_zero, mul_one, ← whole]
    exact f.roundsTo_value x.rank
  have integral : 0 ≤ (x.shortest tie).exponent := x.exponent_le_shortest tie positive itself
  refine ⟨integral, ?_⟩
  obtain ⟨n, hn⟩ := Int.eq_ofNat_of_zero_le integral
  have number : (x.shortest tie).toRat = ((x.shortest tie).coefficient * 10 ^ n : Nat) := by
    rw [Decimal.toRat, hn, zpow_natCast]
    push_cast
    rfl
  rw [number] at rounds ⊢
  obtain same | ⟨next, last⟩ := f.eq_of_roundsTo_whole positive whole small rounds
  · rw [same]
  -- the next number is odd, so that it is on no grid but that of all whole numbers
  have units : n = 0 := by
    by_contra coarse
    have even : 2 ∣ (x.shortest tie).coefficient * 10 ^ n :=
      Dvd.dvd.mul_left ((show 2 ∣ 10 by decide).trans (dvd_pow_self 10 coarse)) _
    omega
  have center : (f.interval x.rank).center = m * 10 ^ f.places := by
    have := f.center_interval_div x.rank
    rw [whole, div_eq_iff (by positivity)] at this
    exact_mod_cast this
  have found := x.shortest_of_pos tie positive
  dsimp only at found
  have grid : ((f.interval x.rank).search tie (f.interval x.rank).coarsest).2 = f.places := by
    rw [found] at hn
    dsimp only at hn
    omega
  have point := Interval.search_of_dvd (f.interval_contains_center positive) tie
    (by rw [grid, center]; exact Nat.dvd_mul_left _ _)
  rw [grid, center] at point
  rw [found, units, pow_zero, Nat.mul_one]
  exact_mod_cast Nat.eq_of_mul_eq_mul_right (Nat.pow_pos (by omega)) point

-- Beyond that digits are dropped: the short decimal of `2 ^ 27` is `134217730`.
example : (⟨false, 154 * 2 ^ 23, by decide⟩ : Finite .single).shortest .up = ⟨13421773, 1⟩ := by
  decide +kernel

theorem Decimal.positional_of_whole {d : Decimal} {m : Nat}
    (nonzero : 0 < d.coefficient ∨ d.exponent = 0) (integral : 0 ≤ d.exponent)
    (whole : d.toRat = m) : d.positional = Digit.chars (Digit.ofNat m) := by
  obtain ⟨first, later, digits⟩ := d.exists_whole
  have number := d.toNat_whole_append_fraction
  rw [d.fraction_of_nonneg integral, List.append_nil, List.length_nil, pow_zero, div_one, whole,
    Nat.cast_inj] at number
  have same := Digit.ofNat_toNat (d.lone_zero_whole nonzero digits)
  rw [← digits, number] at same
  rw [d.positional_eq, d.fraction_of_nonneg integral, Json.NumberToken.fractionText, if_pos rfl,
    List.append_nil, same]

namespace Binary

variable {f : Format} [f.Proper]

theorem exists_ofInt_of_whole {n : Int} (small : n.natAbs ≤ 2 * f.fractions)
    (inside : 2 * f.fractions < f.value f.count) :
    ∃ x : Finite f, ofInt f n = .finite x ∧ x.toRat = n := by
  obtain ⟨rank, value⟩ := f.exists_value_eq small 0
  rw [pow_zero, mul_one] at value
  have nearest : f.nearestRank n.natAbs 1 = rank :=
    f.nearestRank_of_eq_value Nat.one_pos (by rw [Nat.cast_one, div_one, value])
  have finite : f.nearestRank n.natAbs 1 < f.count := by
    have most : (n.natAbs : ℚ) ≤ 2 * f.fractions := by exact_mod_cast small
    rw [nearest, ← f.value_strictMono.lt_iff_lt, value]
    exact most.trans_lt inside
  refine ⟨_, nearest_of_lt finite, ?_⟩
  dsimp only [Finite.toRat]
  rw [nearest, value, signed_natAbs]

/-- An integer that is held exactly is written as itself, where zero has no sign. -/
theorem Finite.write_of_whole (x : Finite f) {n : Int} (small : n.natAbs ≤ 2 * f.fractions)
    (whole : x.toRat = n) (unsigned : n = 0 → x.negative = false) :
    x.write Value.style = writeInt n := by
  have nonneg := f.value_nonneg x.rank
  have magnitude : f.value x.rank = n.natAbs := by
    rw [Nat.cast_natAbs, Int.cast_abs, ← whole, toRat, signed]
    split
    · rw [abs_neg, abs_of_nonneg nonneg]
    · rw [abs_of_nonneg nonneg]
  have sign : x.negative = true ↔ n < 0 := by
    rw [toRat, signed] at whole
    split at whole
    next negative =>
      have : n ≤ 0 := by exact_mod_cast (by linarith : (n : ℚ) ≤ 0)
      have : n ≠ 0 := fun zero => by simp [unsigned zero] at negative
      exact iff_of_true negative (by omega)
    next positive =>
      have : 0 ≤ n := by exact_mod_cast (by linarith : (0 : ℚ) ≤ n)
      exact iff_of_false positive (by omega)
  obtain ⟨integral, same⟩ := x.shortest_of_whole .up magnitude small
  have digits := Decimal.positional_of_whole (x.shortest_nonzero .up) integral same
  change (if x.negative then '-' :: (x.shortest .up).positional
    else (x.shortest .up).positional) = _
  simp only [digits, sign, writeInt]

end Binary

theorem Json.Number.ofList_writeInt (n : Int) : String.ofList (writeInt n) = toString n := by
  rw [Int.toString_eq_repr, Int.repr_eq_if, writeInt, Digit.chars_ofNat]
  by_cases negative : n < 0
  · rw [if_pos negative, if_neg (by omega), show (-n).toNat = n.natAbs by omega,
      Nat.repr_eq_ofList_toDigits, String.ofList_cons]
    rfl
  · rw [if_neg negative, if_pos (by omega), show n.toNat = n.natAbs by omega,
      Nat.repr_eq_ofList_toDigits]

/-- An integer of at most `2 ^ 53` is displayed as its numeral where a double holds it, and one of at
most `2 ^ 24` where a single or an integer of 32 bits does, too. The zero that is meant is the one
without a sign. -/
theorem display_whole (n : Int) :
    (n.natAbs ≤ 2 ^ 53 →
      (∃ x : Finite .double, Binary.ofInt .double n = .finite x ∧ x.toRat = n) ∧
      ∀ x : Finite .double, x.toRat = n → (n = 0 → x.negative = false) →
        (Value.double (.finite x)).display = toString n) ∧
    (n.natAbs ≤ 2 ^ 24 →
      (∃ x : Finite .single, Binary.ofInt .single n = .finite x ∧ x.toRat = n) ∧
      (∀ x : Finite .single, x.toRat = n → (n = 0 → x.negative = false) →
        (Value.single (.finite x)).display = toString n) ∧
      (Int32.ofInt n).toInt = n ∧ (Value.int (.ofInt n)).display = toString n) := by
  refine ⟨fun small => ⟨?_, fun x whole unsigned => ?_⟩,
    fun small => ⟨?_, fun x whole unsigned => ?_, ?_⟩⟩
  · refine Binary.exists_ofInt_of_whole small ?_
    rw [Format.double_value_count, Format.double_fractions_cast, ← pow_succ']
    exact pow_lt_pow_right₀ one_lt_two (by decide)
  · rw [Value.display, Binary.write, x.write_of_whole small whole unsigned,
      Json.Number.ofList_writeInt]
  · refine Binary.exists_ofInt_of_whole small ?_
    rw [Format.single_value_count, Format.fractions_cast, ← pow_succ']
    exact pow_lt_pow_right₀ one_lt_two (by decide)
  · rw [Value.display, Binary.write, x.write_of_whole small whole unsigned,
      Json.Number.ofList_writeInt]
  · have held : (Int32.ofInt n).toInt = n := Int32.toInt_ofInt_of_le (by omega) (by omega)
    exact ⟨held, by rw [Value.display, held, Json.Number.ofList_writeInt]⟩

end Untyped
