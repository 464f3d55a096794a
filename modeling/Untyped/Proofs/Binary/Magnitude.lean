import Mathlib
import Untyped.Binary.Basic

/-! The magnitudes of the ranks: evenly spaced within a binade, and twice as far apart in the next
one. Nothing is bounded by the number of finite ranks. -/
namespace Untyped.Format

variable (f : Format)

theorem fractions_pos : 0 < f.fractions := Nat.pow_pos (by omega)

def spacing (rank : Nat) : Nat := 2 ^ f.shift rank

theorem shift_mono : Monotone f.shift := by
  intro a b h
  exact Nat.sub_le_sub_right (Nat.div_le_div_right h) 1

theorem spacing_mono : Monotone f.spacing := by
  intro a b h
  exact Nat.pow_le_pow_right (by omega) (f.shift_mono h)

theorem start_le {s rank : Nat} (lower : s = 0 ∨ (s + 1) * f.fractions ≤ rank) :
    s * f.fractions ≤ rank := by
  obtain zero | lower := lower
  · rw [zero, Nat.zero_mul]
    exact Nat.zero_le rank
  · exact Nat.le_trans (Nat.mul_le_mul_right _ (Nat.le_succ s)) lower

/-- The ranks of a binade, and the first one beyond it, are evenly spaced. -/
theorem magnitude_of_binade {s : Nat} (rank : Nat) (lower : s = 0 ∨ (s + 1) * f.fractions ≤ rank)
    (upper : rank ≤ (s + 2) * f.fractions) :
    f.magnitude rank = (rank - s * f.fractions) * 2 ^ s := by
  have pos := f.fractions_pos
  obtain inside | beyond := Nat.lt_or_eq_of_le upper
  · have hs : f.shift rank = s := by
      have hq : rank / f.fractions < s + 2 := Nat.div_lt_of_lt_mul (by rwa [Nat.mul_comm])
      obtain rfl | lower := lower
      · rw [shift]
        omega
      · have := (Nat.le_div_iff_mul_le pos).2 lower
        rw [shift]
        omega
    rw [magnitude, hs, Nat.pow_eq]
  · have hs : f.shift rank = s + 1 := by
      rw [shift, beyond, Nat.mul_div_cancel _ pos]
      omega
    have next : rank - (s + 1) * f.fractions = f.fractions := by
      rw [beyond, ← Nat.sub_mul, show s + 2 - (s + 1) = 1 by omega, Nat.one_mul]
    have whole : rank - s * f.fractions = 2 * f.fractions := by
      rw [beyond, ← Nat.sub_mul, show s + 2 - s = 2 by omega]
    rw [magnitude, hs, Nat.pow_eq, next, whole, Nat.pow_succ]
    ring

theorem binade (rank : Nat) :
    (f.shift rank = 0 ∨ (f.shift rank + 1) * f.fractions ≤ rank) ∧
      rank < (f.shift rank + 2) * f.fractions := by
  have below : rank / f.fractions * f.fractions ≤ rank := Nat.div_mul_le_self rank f.fractions
  have above : rank < (rank / f.fractions + 1) * f.fractions := by
    rw [Nat.mul_comm]
    exact Nat.lt_mul_div_succ rank f.fractions_pos
  rw [shift]
  obtain small | large := Nat.lt_or_ge (rank / f.fractions) 2
  · refine ⟨.inl (by omega), Nat.lt_of_lt_of_le above ?_⟩
    exact Nat.mul_le_mul_right _ (by omega)
  · have hq : rank / f.fractions - 1 + 1 = rank / f.fractions := by omega
    refine ⟨.inr (by rwa [hq]), ?_⟩
    rwa [show rank / f.fractions - 1 + 2 = rank / f.fractions + 1 by omega]

/-- A magnitude is a multiple of its spacing that fits a significand. -/
theorem exists_eq_mul_spacing (rank : Nat) :
    ∃ k < 2 * f.fractions, rank = f.shift rank * f.fractions + k ∧
      f.magnitude rank = k * f.spacing rank := by
  obtain ⟨lower, upper⟩ := f.binade rank
  have start := f.start_le lower
  rw [Nat.add_mul] at upper
  exact ⟨rank - f.shift rank * f.fractions, by omega, by omega, rfl⟩

theorem magnitude_succ (rank : Nat) :
    f.magnitude (rank + 1) = f.magnitude rank + f.spacing rank := by
  obtain ⟨lower, upper⟩ := f.binade rank
  have start := f.start_le lower
  have next := f.magnitude_of_binade (rank + 1) (lower.imp_right fun h => by omega) upper
  have here := f.magnitude_of_binade rank lower (Nat.le_of_lt upper)
  rw [next, here, spacing, Nat.sub_add_comm start, Nat.add_mul, Nat.one_mul]

theorem spacing_pos (rank : Nat) : 0 < f.spacing rank := Nat.pow_pos (by omega)

theorem magnitude_strictMono : StrictMono f.magnitude := by
  apply strictMono_nat_of_lt_succ
  intro rank
  have := f.spacing_pos rank
  rw [magnitude_succ]
  omega

theorem magnitude_zero : f.magnitude 0 = 0 := by
  rw [magnitude, Nat.zero_sub, Nat.zero_mul]

theorem magnitude_succ_le (rank : Nat) :
    f.magnitude (rank + 1) ≤ 2 * f.fractions * f.spacing rank := by
  obtain ⟨lower, upper⟩ := f.binade rank
  rw [f.magnitude_of_binade (rank + 1) (lower.imp_right fun h => by omega) upper, spacing]
  apply Nat.mul_le_mul_right
  rw [Nat.add_mul] at upper
  omega

theorem fractions_mul_spacing_le {rank : Nat} (h : f.fractions ≤ rank) :
    f.fractions * f.spacing rank ≤ f.magnitude rank := by
  obtain ⟨lower, upper⟩ := f.binade rank
  rw [f.magnitude_of_binade rank lower (Nat.le_of_lt upper), spacing]
  apply Nat.mul_le_mul_right
  obtain zero | lower := lower
  · rw [zero]
    omega
  · rw [Nat.add_mul] at lower
    omega

/-- The number that a rank stands for. -/
def value (rank : Nat) : ℚ := f.magnitude rank / 2 ^ f.scale

def gap (rank : Nat) : ℚ := f.spacing rank / 2 ^ f.scale

def midpoint (rank : Nat) : ℚ := f.value rank + f.gap rank / 2

theorem scale_pos : (0 : ℚ) < 2 ^ f.scale := by positivity

theorem gap_pos (rank : Nat) : 0 < f.gap rank :=
  div_pos (Nat.cast_pos.2 (f.spacing_pos rank)) f.scale_pos

theorem gap_mono : Monotone f.gap := by
  intro a b h
  exact div_le_div_of_nonneg_right (Nat.cast_le.2 (f.spacing_mono h)) f.scale_pos.le

theorem gap_zero : f.gap 0 = 1 / 2 ^ f.scale := by
  rw [gap, spacing, shift, Nat.zero_div, Nat.zero_sub, pow_zero, Nat.cast_one]

theorem value_zero : f.value 0 = 0 := by
  rw [value, magnitude_zero, Nat.cast_zero, zero_div]

theorem value_succ (rank : Nat) : f.value (rank + 1) = f.value rank + f.gap rank := by
  rw [value, value, gap, magnitude_succ, Nat.cast_add, add_div]

theorem value_strictMono : StrictMono f.value := by
  intro a b h
  exact div_lt_div_of_pos_right (Nat.cast_lt.2 (f.magnitude_strictMono h)) f.scale_pos

theorem value_nonneg (rank : Nat) : 0 ≤ f.value rank := by
  rw [← f.value_zero]
  exact f.value_strictMono.monotone (Nat.zero_le rank)

theorem value_pos {rank : Nat} (h : 0 < rank) : 0 < f.value rank := by
  rw [← f.value_zero]
  exact f.value_strictMono h

theorem value_succ_le (rank : Nat) : f.value (rank + 1) ≤ 2 * f.fractions * f.gap rank := by
  rw [value, gap, ← mul_div_assoc]
  apply div_le_div_of_nonneg_right _ f.scale_pos.le
  exact_mod_cast f.magnitude_succ_le rank

theorem fractions_mul_gap_le {rank : Nat} (h : f.fractions ≤ rank) :
    f.fractions * f.gap rank ≤ f.value rank := by
  rw [value, gap, ← mul_div_assoc]
  apply div_le_div_of_nonneg_right _ f.scale_pos.le
  exact_mod_cast f.fractions_mul_spacing_le h

theorem value_of_binade (s : Nat) {k : Nat} (h : k ≤ f.fractions) :
    f.value ((s + 1) * f.fractions + k) = (f.fractions + k : Nat) * (2 ^ s / 2 ^ f.scale) := by
  have inside : (s + 1) * f.fractions + k ≤ (s + 2) * f.fractions := by
    rw [Nat.add_mul s 2, Nat.add_mul s 1]
    omega
  have start : (s + 1) * f.fractions + k - s * f.fractions = f.fractions + k := by
    rw [Nat.add_mul s 1]
    omega
  rw [value, f.magnitude_of_binade _ (.inr (Nat.le_add_right _ _)) inside, start]
  push_cast
  rw [mul_div_assoc]

theorem gap_of_binade (s : Nat) {k : Nat} (h : k < f.fractions) :
    f.gap ((s + 1) * f.fractions + k) = 2 ^ s / 2 ^ f.scale := by
  have here := f.value_of_binade s h.le
  have next := f.value_of_binade s (show k + 1 ≤ f.fractions from h)
  rw [← Nat.add_assoc, value_succ, here] at next
  push_cast at next
  linarith

theorem value_fractions : f.value f.fractions = f.fractions / 2 ^ f.scale := by
  have least := f.value_of_binade 0 (Nat.zero_le f.fractions)
  rwa [Nat.zero_add, Nat.one_mul, Nat.add_zero, pow_zero, mul_one_div] at least

theorem fractions_cast : (f.fractions : ℚ) = 2 ^ f.fractionBits := Nat.cast_pow 2 f.fractionBits

theorem double_fractions_cast : (double.fractions : ℚ) = 2 ^ 52 := double.fractions_cast

theorem value_fractions_le_one : f.value f.fractions ≤ 1 := by
  rw [value_fractions, div_le_one f.scale_pos, fractions_cast]
  exact pow_le_pow_right₀ one_le_two (Nat.le_add_left _ _)

theorem exists_magnitude_eq {m : Nat} (h : m ≤ 2 * f.fractions) (i : Nat) :
    ∃ rank, f.magnitude rank = m * 2 ^ i := by
  induction i generalizing m with
  | zero => exact ⟨m, by simpa using f.magnitude_of_binade m (.inl rfl) (by omega)⟩
  | succ i ih =>
    obtain small | large := Nat.le_total m f.fractions
    · obtain ⟨rank, hr⟩ := ih (show 2 * m ≤ 2 * f.fractions by omega)
      exact ⟨rank, by rw [hr, pow_succ']; ring⟩
    · -- it fills a significand, so it stands in the binade behind `i + 1` others
      refine ⟨(i + 1) * f.fractions + m, ?_⟩
      have lower : (i + 1 + 1) * f.fractions ≤ (i + 1) * f.fractions + m := by
        rw [Nat.succ_mul (i + 1)]
        omega
      have upper : (i + 1) * f.fractions + m ≤ (i + 1 + 2) * f.fractions := by
        rw [Nat.add_mul (i + 1) 2]
        omega
      rw [f.magnitude_of_binade _ (.inr lower) upper, Nat.add_sub_cancel_left]

/-- A number that fits a significand is a value, however often it is doubled. -/
theorem exists_value_eq {m : Nat} (h : m ≤ 2 * f.fractions) (i : Nat) :
    ∃ rank, f.value rank = m * 2 ^ i := by
  obtain ⟨rank, hr⟩ := f.exists_magnitude_eq h (i + f.scale)
  refine ⟨rank, ?_⟩
  rw [value, hr, div_eq_iff f.scale_pos.ne', mul_assoc, ← pow_add]
  push_cast
  rfl

theorem value_lt_midpoint (rank : Nat) : f.value rank < f.midpoint rank := by
  have := f.gap_pos rank
  rw [midpoint]
  linarith

theorem midpoint_lt_value (rank : Nat) : f.midpoint rank < f.value (rank + 1) := by
  have := f.gap_pos rank
  rw [midpoint, value_succ]
  linarith

theorem midpoint_zero : f.midpoint 0 = 1 / 2 ^ (f.scale + 1) := by
  rw [midpoint, value_zero, gap_zero, zero_add, div_div, pow_succ]

theorem midpoint_strictMono : StrictMono f.midpoint := by
  apply strictMono_nat_of_lt_succ
  intro rank
  exact (f.midpoint_lt_value rank).trans (f.value_lt_midpoint (rank + 1))

theorem value_count (h : 2 ≤ f.exponentBits) : f.value f.count = 2 ^ 2 ^ (f.exponentBits - 1) := by
  obtain ⟨e, he⟩ := Nat.exists_eq_add_of_le' h
  obtain ⟨n, hn⟩ : ∃ n, 2 ^ (e + 1) = n + 2 :=
    Nat.exists_eq_add_of_le' (Nat.pow_le_pow_right (show 0 < 2 by omega) (show 1 ≤ e + 1 by omega))
  have whole : 2 ^ (e + 2) - 1 = 2 * n + 1 + 2 := by
    rw [Nat.pow_succ, hn]
    omega
  have last : f.count = (2 * n + 1 + 1) * f.fractions + f.fractions := by
    rw [count, Nat.pow_eq, he, whole]
    ring
  have scale : f.scale = n + f.fractionBits := by
    rw [Format.scale, Nat.pow_eq, he, Nat.add_sub_assoc (by omega), hn, Nat.add_sub_cancel]
  rw [last, f.value_of_binade _ (Nat.le_refl _), he, Nat.add_sub_assoc (by omega), hn, Nat.cast_add,
    fractions_cast, scale, ← mul_div_assoc, div_eq_iff (by positivity)]
  ring

theorem double_value_count : double.value double.count = 2 ^ 1024 := double.value_count (by decide)

theorem single_value_count : single.value single.count = 2 ^ 128 := single.value_count (by decide)

end Untyped.Format
