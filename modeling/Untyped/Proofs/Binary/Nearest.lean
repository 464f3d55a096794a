import Mathlib
import Untyped.Binary.Round
import Untyped.Proofs.Binary.Magnitude

/-! Rounding, told by the midpoints: a quotient rounds to a rank or below exactly if it is before
the midpoint behind that rank, or on it where the rank is even. -/
namespace Untyped

theorem roundHalfEven_le_iff {n d : Nat} (hd : 0 < d) (k : Nat) :
    roundHalfEven n d ≤ k ↔ 2 * n < (2 * k + 1) * d ∨ (2 * n = (2 * k + 1) * d ∧ k % 2 = 0) := by
  have hn : n = d * (n / d) + n % d := (Nat.div_add_mod n d).symm
  have hr : n % d < d := Nat.mod_lt n hd
  rw [roundHalfEven]
  generalize n / d = q at *
  generalize n % d = r at *
  -- in doubled units of `d` the midpoints are odd and the multiples even
  have below {a b : Nat} (h : a < b) : (2 * a + 1) * d + d ≤ 2 * (d * b) := by
    have := Nat.mul_le_mul_left d (Nat.succ_le_of_lt h)
    rw [Nat.mul_succ] at this
    linarith
  have above {a b : Nat} (h : a ≤ b) : 2 * (d * a) + d ≤ (2 * b + 1) * d := by
    have := Nat.mul_le_mul_left d h
    linarith
  split_ifs with low high
  · constructor
    · intro h
      have := above h
      omega
    · intro h
      by_contra hk
      have := below (Nat.lt_of_not_le hk)
      omega
  · constructor
    · intro h
      have := below h
      have := above (Nat.le_refl q)
      have : (2 * q + 1) * d + 2 * d ≤ (2 * k + 1) * d := by
        have := Nat.mul_le_mul_right d (show 2 * q + 1 + 2 ≤ 2 * k + 1 by omega)
        linarith
      omega
    · intro h
      by_contra hk
      have : (2 * k + 1) * d ≤ (2 * q + 1) * d := Nat.mul_le_mul_right d (by omega)
      have := above (Nat.le_refl q)
      have : 2 * (d * q) + d = (2 * q + 1) * d := by ring
      omega
  · have tie : 2 * n = (2 * q + 1) * d := by
      have : 2 * (d * q) + d = (2 * q + 1) * d := by ring
      omega
    rw [tie, Nat.mul_lt_mul_right hd, Nat.mul_left_inj (Nat.ne_of_gt hd)]
    omega

theorem roundHalfEven_le {n d k : Nat} (hd : 0 < d) (h : n ≤ k * d) : roundHalfEven n d ≤ k := by
  rw [roundHalfEven_le_iff hd]
  left
  rw [Nat.add_mul, Nat.mul_assoc]
  omega

theorem le_roundHalfEven {n d k : Nat} (hd : 0 < d) (h : k * d ≤ n) : k ≤ roundHalfEven n d := by
  have whole := (Nat.le_div_iff_mul_le hd).2 h
  rw [roundHalfEven]
  split_ifs <;> omega

namespace Format

/-- Neighbouring ranks of one spacing differ in parity, in whichever binade they are. -/
class Proper (f : Format) : Prop where
  fractionBits_pos : 0 < f.fractionBits

instance : Proper double := ⟨by decide⟩

instance : Proper single := ⟨by decide⟩

theorem two_dvd_fractions (f : Format) [f.Proper] : 2 ∣ f.fractions :=
  dvd_pow_self 2 (Nat.ne_of_gt Proper.fractionBits_pos)

variable (f : Format)

theorem spacing_pred_of_odd [f.Proper] {rank : Nat} (odd : rank % 2 = 1) :
    f.spacing (rank - 1) = f.spacing rank := by
  have apart : ¬f.fractions ∣ rank := fun whole => by
    have := f.two_dvd_fractions.trans whole
    omega
  have next : rank - 1 + 1 = rank := by omega
  have same := @Nat.succ_div (rank - 1) f.fractions
  rw [next, if_neg apart, Nat.add_zero] at same
  rw [spacing, spacing, shift, shift, same]

/-- The binade in which a quotient is rounded: unless it is the least one, the quotient is not below
it; and it is never beyond. -/
theorem units_bounds (units : Nat) {den : Nat} (hden : 0 < den) :
    let s := (units / den).log2 - f.fractionBits
    (s = 0 ∨ f.fractions * 2 ^ s * den ≤ units) ∧ units < 2 * f.fractions * 2 ^ s * den := by
  intro s
  have whole : units < (units / den + 1) * den := by
    rw [Nat.mul_comm]
    exact Nat.lt_mul_div_succ units hden
  have size : f.fractions * 2 ^ s = 2 ^ (f.fractionBits + s) := by
    rw [fractions, Nat.pow_eq, ← Nat.pow_add]
  constructor
  · by_cases hs : s = 0
    · exact .inl hs
    · right
      have hlog : f.fractionBits + s = (units / den).log2 := by omega
      have nonzero : units / den ≠ 0 := by
        intro h
        apply hs
        simp [s, h]
      rw [size, hlog]
      exact (Nat.le_div_iff_mul_le hden).1 (Nat.log2_self_le nonzero)
  · have hlog : units / den + 1 ≤ 2 ^ (f.fractionBits + s + 1) :=
      Nat.lt_of_lt_of_le Nat.lt_log2_self (Nat.pow_le_pow_right (by omega) (by omega))
    have : 2 * f.fractions * 2 ^ s = 2 ^ (f.fractionBits + s + 1) := by
      rw [Nat.mul_assoc, size, Nat.pow_succ, Nat.mul_comm]
    rw [this]
    exact Nat.lt_of_lt_of_le whole (Nat.mul_le_mul_right den hlog)

variable [f.Proper]

theorem nearestRank_le_iff_units (num : Nat) {den : Nat} (hden : 0 < den) (rank : Nat) :
    let units := num * 2 ^ f.scale
    let double := (f.magnitude rank + f.magnitude (rank + 1)) * den
    f.nearestRank num den ≤ rank ↔ 2 * units < double ∨ (2 * units = double ∧ rank % 2 = 0) := by
  intro units double
  obtain ⟨lower, upper⟩ := f.units_bounds units hden
  rw [nearestRank]
  simp only [Nat.pow_eq]
  change _ * _ + roundHalfEven units _ ≤ _ ↔ _
  set s := (units / den).log2 - f.fractionBits
  have hd : 0 < den * 2 ^ s := Nat.mul_pos hden (Nat.pow_pos (by omega))
  have mono := f.magnitude_strictMono
  have step := mono (Nat.lt_add_one rank)
  by_cases small : s ≠ 0 ∧ rank < (s + 1) * f.fractions
  · -- the quotient is in a later binade than the midpoint
    have reached := lower.resolve_left small.1
    have rounded : f.fractions ≤ roundHalfEven units (den * 2 ^ s) :=
      le_roundHalfEven hd (by linarith)
    have ends : f.magnitude (rank + 1) ≤ f.fractions * 2 ^ s := by
      have first := f.magnitude_of_binade ((s + 1) * f.fractions) (.inr (Nat.le_refl _)) (by gcongr; omega)
      rw [← Nat.sub_mul, Nat.add_sub_cancel_left, Nat.one_mul] at first
      rw [← first]
      exact mono.monotone small.2
    have before : double < 2 * (f.fractions * 2 ^ s) * den :=
      Nat.mul_lt_mul_of_pos_right (by omega) hden
    have above : rank < s * f.fractions + f.fractions := by linarith [small.2]
    constructor
    · intro h
      omega
    · intro h
      linarith [h.elim Nat.le_of_lt fun h => h.1.le]
  by_cases large : (s + 2) * f.fractions ≤ rank
  · -- and here in an earlier one
    have rounded : roundHalfEven units (den * 2 ^ s) ≤ 2 * f.fractions :=
      roundHalfEven_le hd (by linarith)
    have starts : 2 * f.fractions * 2 ^ s ≤ f.magnitude rank := by
      have last := f.magnitude_of_binade ((s + 2) * f.fractions) (.inr (by gcongr; omega)) (Nat.le_refl _)
      rw [← Nat.sub_mul, Nat.add_sub_cancel_left] at last
      rw [← last]
      exact mono.monotone large
    have after : 2 * (2 * f.fractions * 2 ^ s) * den < double :=
      Nat.mul_lt_mul_of_pos_right (by omega) hden
    constructor
    · intro h
      left
      linarith
    · intro h
      linarith
  · -- both are in one binade, where rounding is that of whole numbers
    have inside : s = 0 ∨ (s + 1) * f.fractions ≤ rank := by omega
    obtain ⟨k, rfl⟩ := Nat.exists_eq_add_of_le (f.start_le inside)
    have here := f.magnitude_of_binade _ inside (by omega)
    have next := f.magnitude_of_binade (s * f.fractions + k + 1)
      (inside.imp_right fun h => by omega) (by omega)
    rw [Nat.add_sub_cancel_left] at here
    rw [Nat.add_assoc, Nat.add_sub_cancel_left, ← Nat.add_assoc] at next
    have same : double = (2 * k + 1) * (den * 2 ^ s) := by
      simp only [double, here, next]
      ring
    have parity : (s * f.fractions + k) % 2 = k % 2 := by
      obtain ⟨half, whole⟩ := f.two_dvd_fractions
      rw [whole, show s * (2 * half) + k = k + 2 * (s * half) by ring, Nat.add_mul_mod_self_left]
    rw [Nat.add_le_add_iff_left, roundHalfEven_le_iff hd, same, parity]

omit [f.Proper] in
theorem midpoint_eq (rank : Nat) :
    f.midpoint rank = (f.magnitude rank + f.magnitude (rank + 1) : Nat) / (2 * 2 ^ f.scale) := by
  have := f.scale_pos
  rw [midpoint, value, gap, magnitude_succ]
  push_cast
  field_simp
  ring

theorem nearestRank_le_iff (num : Nat) {den : Nat} (hden : 0 < den) (rank : Nat) :
    f.nearestRank num den ≤ rank ↔
      (num / den : ℚ) < f.midpoint rank ∨ ((num / den : ℚ) = f.midpoint rank ∧ rank % 2 = 0) := by
  have den_pos : (0 : ℚ) < den := Nat.cast_pos.2 hden
  have double_pos : (0 : ℚ) < 2 * 2 ^ f.scale := by positivity
  have units := f.nearestRank_le_iff_units num hden rank
  dsimp only at units
  rw [units, midpoint_eq, div_lt_div_iff₀ den_pos double_pos,
    div_eq_div_iff den_pos.ne' double_pos.ne', show 2 * (num * 2 ^ f.scale) = num * (2 * 2 ^ f.scale)
      by ring]
  norm_cast

variable {num den : Nat} (hden : 0 < den)

include hden

theorem nearestRank_le_of_lt {rank : Nat} (h : (num / den : ℚ) < f.midpoint rank) :
    f.nearestRank num den ≤ rank := (f.nearestRank_le_iff num hden rank).2 (.inl h)

theorem lt_nearestRank_of_lt {rank : Nat} (h : f.midpoint rank < (num / den : ℚ)) :
    rank < f.nearestRank num den := by
  by_contra hle
  obtain below | tie := (f.nearestRank_le_iff num hden rank).1 (Nat.le_of_not_lt hle)
  · exact lt_asymm h below
  · exact h.ne' tie.1

theorem le_midpoint_nearestRank : (num / den : ℚ) ≤ f.midpoint (f.nearestRank num den) := by
  by_contra h
  exact Nat.lt_irrefl _ (f.lt_nearestRank_of_lt hden (not_le.1 h))

theorem midpoint_le_of_lt_nearestRank (rank : Nat) (h : rank < f.nearestRank num den) :
    f.midpoint rank ≤ num / den := by
  by_contra hlt
  exact Nat.not_le_of_lt h (f.nearestRank_le_of_lt hden (not_le.1 hlt))

/-- The number is between the midpoints to the rank's neighbours, and on one only if the rank is
even. -/
structure RoundsTo (f : Format) (q : ℚ) (rank : Nat) : Prop where
  upper : q < f.midpoint rank ∨ (q = f.midpoint rank ∧ rank % 2 = 0)
  lower : 0 < rank → f.midpoint (rank - 1) < q ∨ (q = f.midpoint (rank - 1) ∧ rank % 2 = 0)

omit [f.Proper] hden in
theorem roundsTo_value (rank : Nat) : f.RoundsTo (f.value rank) rank where
  upper := .inl (f.value_lt_midpoint rank)
  lower positive := .inl (by
    have before := f.midpoint_lt_value (rank - 1)
    rwa [Nat.sub_add_cancel positive] at before)

variable {f} in
omit [f.Proper] hden in
theorem RoundsTo.le_midpoint {q : ℚ} {rank : Nat} (h : f.RoundsTo q rank) : q ≤ f.midpoint rank :=
  h.upper.elim le_of_lt fun same => same.1.le

variable {f} in
omit [f.Proper] hden in
theorem RoundsTo.midpoint_le {q : ℚ} {rank : Nat} (h : f.RoundsTo q rank) (positive : 0 < rank) :
    f.midpoint (rank - 1) ≤ q :=
  (h.lower positive).elim le_of_lt fun same => same.1.ge

variable {f} in
omit [f.Proper] hden in
theorem RoundsTo.le_rank {q : ℚ} {rank other : Nat} (h : f.RoundsTo q rank)
    (le : f.value other ≤ q) : other ≤ rank := by
  by_contra beyond
  have next : f.value (rank + 1) ≤ f.value other := f.value_strictMono.monotone (by omega)
  have := f.midpoint_lt_value rank
  have := h.le_midpoint
  linarith

variable {f} in
omit [f.Proper] hden in
theorem RoundsTo.rank_le {q : ℚ} {rank other : Nat} (h : f.RoundsTo q rank)
    (le : q ≤ f.value other) : rank ≤ other := by
  by_contra before
  have previous : f.value other ≤ f.value (rank - 1) := f.value_strictMono.monotone (by omega)
  have := f.value_lt_midpoint (rank - 1)
  have := h.midpoint_le (by omega)
  linarith

theorem nearestRank_eq_iff (rank : Nat) :
    f.nearestRank num den = rank ↔ f.RoundsTo (num / den) rank := by
  have upper := f.nearestRank_le_iff num hden rank
  have lower := f.nearestRank_le_iff num hden (rank - 1)
  constructor
  · intro h
    refine ⟨upper.1 h.le, fun positive => ?_⟩
    obtain ⟨notBelow, notTie⟩ := not_or.1 (mt lower.2 (by omega))
    obtain above | same := lt_or_eq_of_le (not_lt.1 notBelow)
    · exact .inl above
    · have odd : ¬(rank - 1) % 2 = 0 := fun even => notTie ⟨same.symm, even⟩
      exact .inr ⟨same.symm, by omega⟩
  · intro h
    apply Nat.le_antisymm (upper.2 h.upper)
    by_contra less
    have positive : 0 < rank := by omega
    obtain below | tie := lower.1 (by omega)
    · obtain above | onMidpoint := h.lower positive
      · exact lt_asymm below above
      · exact below.ne onMidpoint.1
    · obtain above | onMidpoint := h.lower positive
      · exact above.ne' tie.1
      · omega

theorem nearestRank_mono {num' den' : Nat} (hden' : 0 < den')
    (h : (num / den : ℚ) ≤ num' / den') : f.nearestRank num den ≤ f.nearestRank num' den' := by
  apply (f.nearestRank_le_iff num hden _).2
  obtain below | tie := (f.nearestRank_le_iff num' hden' _).1 (Nat.le_refl (f.nearestRank num' den'))
  · exact .inl (lt_of_le_of_lt h below)
  · obtain less | same := lt_or_eq_of_le h
    · exact .inl (lt_of_lt_of_eq less tie.1)
    · exact .inr ⟨same.trans tie.1, tie.2⟩

omit hden in
theorem nearestRank_one_mono : Monotone fun n => f.nearestRank n 1 := by
  intro m n h
  apply f.nearestRank_mono Nat.one_pos Nat.one_pos
  gcongr

theorem nearestRank_of_eq_value {rank : Nat} (h : (num / den : ℚ) = f.value rank) :
    f.nearestRank num den = rank := by
  apply Nat.le_antisymm
  · exact f.nearestRank_le_of_lt hden (h ▸ f.value_lt_midpoint rank)
  · by_contra below
    have after := Nat.lt_of_not_le below
    have := f.midpoint_lt_value (rank - 1)
    rw [Nat.sub_add_cancel (by omega), ← h] at this
    exact Nat.not_lt_of_le (Nat.le_sub_one_of_lt after) (f.lt_nearestRank_of_lt hden this)

theorem le_nearestRank_of_value_le {rank : Nat} (h : f.value rank ≤ num / den) :
    rank ≤ f.nearestRank num den := by
  have scale : 0 < 2 ^ f.scale := Nat.pow_pos (by omega)
  have own : ((f.magnitude rank : Nat) / (2 ^ f.scale : Nat) : ℚ) = f.value rank := by
    rw [value]
    norm_cast
  rw [← f.nearestRank_of_eq_value scale own]
  exact f.nearestRank_mono scale hden (own.trans_le h)

theorem nearestRank_le_of_le_value {rank : Nat} (h : (num / den : ℚ) ≤ f.value rank) :
    f.nearestRank num den ≤ rank :=
  f.nearestRank_le_of_lt hden (h.trans_lt (f.value_lt_midpoint rank))

theorem nearestRank_pos (h : f.gap 0 ≤ num / den) : 0 < f.nearestRank num den := by
  apply f.le_nearestRank_of_value_le hden
  rwa [f.value_succ, f.value_zero, zero_add]

variable (num) in
/-- No rank is nearer to the quotient, and where another is equally near, the chosen one is even. -/
theorem nearestRank_nearest (rank : Nat) :
    |f.value (f.nearestRank num den) - num / den| ≤ |f.value rank - num / den| ∧
      (rank ≠ f.nearestRank num den →
        |f.value (f.nearestRank num den) - num / den| = |f.value rank - num / den| →
          f.nearestRank num den % 2 = 0) := by
  have chosen := f.nearestRank_le_iff num hden (f.nearestRank num den)
  have before : f.nearestRank num den - 1 < f.nearestRank num den → _ :=
    f.midpoint_le_of_lt_nearestRank hden _
  have notBefore := f.nearestRank_le_iff num hden (f.nearestRank num den - 1)
  generalize f.nearestRank num den = r at *
  generalize (num / den : ℚ) = q at *
  have upper : q ≤ f.midpoint r := (chosen.1 (Nat.le_refl r)).elim le_of_lt fun tie => tie.1.le
  have gap := f.gap_pos r
  have next := f.value_succ r
  obtain lower | same | higher := Nat.lt_trichotomy rank r
  · have previous := f.value_succ (r - 1)
    rw [Nat.sub_add_cancel (by omega)] at previous
    have lowest := before (by omega)
    have far : f.value rank ≤ f.value (r - 1) := f.value_strictMono.monotone (by omega)
    have step := f.gap_pos (r - 1)
    rw [Format.midpoint] at upper lowest
    have off : |f.value rank - q| = q - f.value rank := by
      rw [abs_sub_comm]
      exact abs_of_nonneg (by linarith)
    rw [off]
    refine ⟨abs_le.2 ⟨by linarith, by linarith⟩, fun _ tie => ?_⟩
    -- equally near is only the rank before, from the midpoint that belongs to the even one
    have onMidpoint : q = f.midpoint (r - 1) := by
      rw [Format.midpoint]
      obtain left | right := abs_cases (f.value r - q) <;> linarith
    by_contra odd
    have := notBefore.2 (.inr ⟨onMidpoint, by omega⟩)
    omega
  · rw [same]
    exact ⟨le_refl _, fun h => absurd rfl h⟩
  · have far : f.value (r + 1) ≤ f.value rank := f.value_strictMono.monotone higher
    have last := upper
    rw [Format.midpoint] at last
    have off : |f.value rank - q| = f.value rank - q := abs_of_nonneg (by linarith)
    rw [off]
    refine ⟨abs_le.2 ⟨?_, ?_⟩, fun _ tie => ?_⟩
    · linarith
    · linarith
    · have onMidpoint : q = f.midpoint r := by
        rw [Format.midpoint]
        obtain left | right := abs_cases (f.value r - q) <;> linarith
      exact (chosen.1 (Nat.le_refl r)).elim (fun h => absurd onMidpoint h.ne) And.right

end Format

namespace Binary

variable {f : Format}

def signed (negative : Bool) (q : ℚ) : ℚ := if negative then -q else q

/-- The number that a finite datum stands for; it forgets the sign of zero. -/
def Finite.toRat (x : Finite f) : ℚ := signed x.negative (f.value x.rank)

/-- No datum of the format is nearer to the number, and of equally near ones this has an even
fraction. -/
structure Finite.IsNearest (x : Finite f) (q : ℚ) : Prop where
  nearest : ∀ y : Finite f, |x.toRat - q| ≤ |y.toRat - q|
  even_of_tie : ∀ y : Finite f, y.toRat ≠ x.toRat → |x.toRat - q| = |y.toRat - q| →
    x.rank % 2 = 0

theorem nearest_of_lt {negative : Bool} {num den : Nat} (h : f.nearestRank num den < f.count) :
    nearest f negative num den = .finite ⟨negative, f.nearestRank num den, h⟩ := dif_pos h

theorem abs_signed_sub (negative : Bool) (a b : ℚ) :
    |signed negative a - signed negative b| = |a - b| := by
  cases negative
  · rfl
  · rw [signed, signed, if_pos rfl, if_pos rfl, neg_sub_neg, abs_sub_comm]

theorem signed_not (negative : Bool) (a : ℚ) : signed (!negative) a = signed negative (-a) := by
  cases negative
  · rfl
  · exact (neg_neg a).symm

namespace Finite

theorem abs_toRat_sub (x : Finite f) (negative : Bool) {q : ℚ} (hq : 0 ≤ q) :
    |x.toRat - signed negative q| =
      if x.negative = negative then |f.value x.rank - q| else f.value x.rank + q := by
  by_cases same : x.negative = negative
  · rw [if_pos same, toRat, same, abs_signed_sub]
  · have opposite : x.negative = !negative := by
      cases negative <;> simpa using same
    have := f.value_nonneg x.rank
    rw [if_neg same, toRat, opposite, signed_not, abs_signed_sub, abs_of_nonpos (by linarith)]
    ring

/-- A datum of the nearest rank is nearest; the data of the other sign are no nearer. -/
theorem isNearest_of_rank [f.Proper] {x : Finite f} {num den : Nat} (hden : 0 < den)
    (h : x.rank = f.nearestRank num den) : x.IsNearest (signed x.negative (num / den)) := by
  have nonneg : (0 : ℚ) ≤ num / den := by positivity
  have self := x.abs_toRat_sub x.negative nonneg
  rw [if_pos rfl] at self
  have other (y : Finite f) : |f.value y.rank - num / den| ≤
      |y.toRat - signed x.negative (num / den)| := by
    have := f.value_nonneg y.rank
    rw [y.abs_toRat_sub x.negative nonneg]
    split_ifs
    · exact le_refl _
    · exact abs_le.2 ⟨by linarith, by linarith⟩
  constructor
  · intro y
    rw [self, h]
    exact (f.nearestRank_nearest num hden y.rank).1.trans (other y)
  · intro y differ tie
    rw [self] at tie
    have nearest := f.nearestRank_nearest num hden y.rank
    rw [← h] at nearest
    by_cases same : y.rank = x.rank
    · -- only the sign differs, so the datum is as near as its opposite: both are zero
      have opposite : ¬y.negative = x.negative := by
        intro sign
        apply differ
        rw [toRat, toRat, same, sign]
      rw [y.abs_toRat_sub x.negative nonneg, if_neg opposite, same] at tie
      have zero := (f.nearestRank_nearest num hden 0).1
      rw [← h, tie, f.value_zero, zero_sub, abs_neg, abs_of_nonneg nonneg] at zero
      have : ¬0 < x.rank := fun positive => absurd (f.value_pos positive) (by linarith)
      omega
    · exact nearest.2 same (le_antisymm nearest.1 (tie ▸ other y))

end Finite

/-! ### Rational magnitudes -/

theorem natAbs_num_div_den {q : ℚ} (hq : 0 ≤ q) : (q.num.natAbs / q.den : ℚ) = q := by
  have num : ((q.num.natAbs : Nat) : ℚ) = q.num := by
    rw [Nat.cast_natAbs, abs_of_nonneg (Rat.num_nonneg.2 hq)]
  rw [num, Rat.num_div_den]

/-- The datum of the sign that is nearest to a magnitude, of two equally near ones that with an even
fraction. -/
def ofRat (f : Format) (negative : Bool) (q : ℚ) : Binary f :=
  nearest f negative q.num.natAbs q.den

theorem nearestRank_of_roundsTo [f.Proper] {q : ℚ} (hq : 0 ≤ q) {rank : Nat}
    (h : f.RoundsTo q rank) : f.nearestRank q.num.natAbs q.den = rank := by
  rw [f.nearestRank_eq_iff q.den_pos, natAbs_num_div_den hq]
  exact h

theorem ofRat_of_roundsTo [f.Proper] {q : ℚ} (hq : 0 ≤ q) {x : Finite f}
    (h : f.RoundsTo q x.rank) : ofRat f x.negative q = .finite x := by
  have same := nearestRank_of_roundsTo hq h
  rw [ofRat, nearest_of_lt (same.trans_lt x.rank_lt)]
  simp only [same]

theorem roundsTo_of_nearest [f.Proper] {negative : Bool} {num den : Nat} (hden : 0 < den)
    {x : Finite f} (h : nearest f negative num den = .finite x) :
    x.negative = negative ∧ f.RoundsTo (num / den) x.rank := by
  unfold nearest ofRank at h
  split at h
  next =>
    obtain rfl := Binary.finite.inj h
    exact ⟨rfl, (f.nearestRank_eq_iff hden _).1 rfl⟩
  next => cases h

theorem roundsTo_of_ofRat [f.Proper] {negative : Bool} {q : ℚ} (hq : 0 ≤ q) {x : Finite f}
    (h : ofRat f negative q = .finite x) : f.RoundsTo q x.rank := by
  rw [← natAbs_num_div_den hq]
  exact (roundsTo_of_nearest q.den_pos h).2

/-! ### Integers -/

theorem signed_natAbs (k : Int) : signed (decide (k < 0)) (k.natAbs : ℚ) = k := by
  rw [signed, Nat.cast_natAbs, Int.cast_abs]
  by_cases negative : k < 0
  · rw [if_pos (decide_eq_true negative), abs_of_neg (Int.cast_lt_zero.2 negative), neg_neg]
  · rw [if_neg (by simpa using negative), abs_of_nonneg (Int.cast_nonneg (by omega))]

theorem double_nearestRank_lt {num den k : Nat} (hden : 0 < den) (hk : k < 1024)
    (h : (num / den : ℚ) ≤ 2 ^ k) : Format.double.nearestRank num den < Format.double.count := by
  obtain ⟨rank, hrank⟩ := Format.double.exists_value_eq (m := 1) (by decide) k
  rw [Nat.cast_one, one_mul] at hrank
  have below : Format.double.nearestRank num den ≤ rank :=
    Format.double.nearestRank_le_of_le_value hden (by rwa [hrank])
  have inside : rank < Format.double.count := by
    rw [← Format.double.value_strictMono.lt_iff_lt, hrank, Format.double_value_count]
    exact pow_lt_pow_right₀ one_lt_two hk
  omega

theorem double_nearestRank_lt_of_le {n : Nat} (h : n ≤ 2 ^ 64) :
    Format.double.nearestRank n 1 < Format.double.count := by
  apply double_nearestRank_lt (k := 64) Nat.one_pos (by decide)
  rw [Nat.cast_one, div_one]
  exact_mod_cast h

theorem double_nearestRank_pos {n : Nat} (h : 0 < n) : 0 < Format.double.nearestRank n 1 := by
  apply Format.double.nearestRank_pos Nat.one_pos
  rw [Format.gap_zero, Nat.cast_one, div_one]
  calc (1 : ℚ) / 2 ^ Format.double.scale ≤ 1 := div_le_self zero_le_one (one_le_pow₀ one_le_two)
    _ ≤ n := Nat.one_le_cast.2 h

/-- An integer of at most 64 bits has a nearest double, which is zero for no other integer. -/
theorem exists_ofInt {k : Int} (h : k.natAbs ≤ 2 ^ 64) :
    ∃ x : Finite .double, ofInt .double k = .finite x ∧ x.IsNearest k ∧ (x.isZero ↔ k = 0) := by
  have finite := double_nearestRank_lt_of_le h
  refine ⟨⟨decide (k < 0), _, finite⟩, nearest_of_lt finite, ?_, ?_⟩
  · have nearest := Finite.isNearest_of_rank (x := ⟨decide (k < 0), _, finite⟩) Nat.one_pos rfl
    rwa [Nat.cast_one, div_one, signed_natAbs] at nearest
  · have zero : Format.double.nearestRank 0 1 = 0 :=
      Format.double.nearestRank_of_eq_value Nat.one_pos (by simp [Format.value_zero])
    have positive : 0 < k.natAbs → 0 < Format.double.nearestRank k.natAbs 1 :=
      double_nearestRank_pos
    rw [Finite.isZero, beq_iff_eq]
    constructor
    · intro h
      change Format.double.nearestRank k.natAbs 1 = 0 at h
      omega
    · intro h
      change Format.double.nearestRank k.natAbs 1 = 0
      rw [h, Int.natAbs_zero, zero]

end Binary

end Untyped
