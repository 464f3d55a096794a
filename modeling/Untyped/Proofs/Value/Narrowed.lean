import Mathlib
import Untyped.Proofs.Decimal.Midpoints
import Untyped.Proofs.Value.Numerals
import Untyped.Binary.Arithmetic

/-! A single that becomes a number in JSON and is narrowed again. The two roundings, of its decimal
to a double and of that to a single, lead back to it where the double is not on a midpoint between
singles; one magnitude goes astray. -/
namespace Untyped
open Format (double single)

namespace Format

theorem exists_value_eq_halves {m : Nat} (few : m ≤ 2 * double.fractions) (i : Nat) :
    ∃ rank, double.value rank = (m * 2 ^ i : Nat) / (2 * 2 ^ single.scale) := by
  have scale : double.scale = single.scale + 1 + 924 := by decide
  obtain ⟨rank, hr⟩ := double.exists_magnitude_eq few (i + 924)
  refine ⟨rank, ?_⟩
  rw [value, hr, scale, pow_add, ← Nat.mul_assoc, Nat.cast_mul _ (2 ^ 924), Nat.cast_pow 2 924,
    Nat.cast_two, pow_add _ (single.scale + 1), mul_div_mul_right _ _ (by positivity), pow_succ']

theorem two_mul_single_fractions_lt : 2 * (2 * single.fractions) < 2 * double.fractions := by
  have small : single.fractions = 2 ^ 23 := by decide
  have large : double.fractions = 2 ^ 52 := by decide
  omega

/-- The midpoints between singles are doubles, beyond the finite ones too. -/
theorem exists_value_eq_midpoint (j : Nat) : ∃ rank, double.value rank = single.midpoint j := by
  have few := two_mul_single_fractions_lt
  obtain ⟨k, fits, _, here⟩ := single.exists_eq_mul_spacing j
  have twice : single.magnitude j + single.magnitude (j + 1) =
      (2 * k + 1) * 2 ^ single.shift j := by
    rw [magnitude_succ, here, spacing]
    ring
  obtain ⟨rank, hr⟩ := exists_value_eq_halves
    (show 2 * k + 1 ≤ 2 * double.fractions by omega) (single.shift j)
  exact ⟨rank, by rw [hr, midpoint_eq, twice]⟩

end Format

namespace Binary

theorem convert_of_roundsTo {f g : Format} [g.Proper] {x : Finite f} {y : Finite g}
    (sign : x.negative = y.negative) (rounds : g.RoundsTo (f.value x.rank) y.rank) :
    convert g (.finite x) = .finite y := by
  have quotient : (f.value x.rank) = (x.magnitude : ℚ) / (Nat.pow 2 f.scale : Nat) := by
    rw [Nat.pow_eq, Nat.cast_pow, Nat.cast_two]
    rfl
  have rank : g.nearestRank x.magnitude (Nat.pow 2 f.scale) = y.rank :=
    (g.nearestRank_eq_iff (Nat.pow_pos (by omega)) y.rank).2 (quotient ▸ rounds)
  rw [convert, Finite.convert, nearest_of_lt (rank.trans_lt y.rank_lt), sign]
  simp only [rank]

section Narrowed

variable {x : Finite .single} {y : Finite .double} (widened : widenByText (.finite x) = .finite y)

include widened

theorem value_le_midpoint : double.value y.rank ≤ single.midpoint x.rank := by
  obtain ⟨other, same⟩ := Format.exists_value_eq_midpoint x.rank
  rw [← same]
  apply double.value_strictMono.monotone
  apply (roundsTo_of_widenByText widened).2.rank_le
  rw [same]
  exact (x.roundsTo_shortest .up).le_midpoint

theorem midpoint_le_value (positive : 0 < x.rank) :
    single.midpoint (x.rank - 1) ≤ double.value y.rank := by
  obtain ⟨other, same⟩ := Format.exists_value_eq_midpoint (x.rank - 1)
  rw [← same]
  apply double.value_strictMono.monotone
  apply (roundsTo_of_widenByText widened).2.le_rank
  rw [same]
  exact (x.roundsTo_shortest .up).midpoint_le positive

theorem value_ne_midpoint (odd : x.rank % 2 = 1) (other : x.rank ≠ 0x15ae43fd) {j : Nat}
    (adjacent : j + 1 = x.rank ∨ j = x.rank) : double.value y.rank ≠ single.midpoint j := by
  intro same
  have close := close_widenByText widened (show 0 < x.rank by omega)
  have far := x.midpoint_lt_of_odd odd other adjacent
  rw [same, Format.Close, pow_one, Format.double_roundoff] at close
  generalize single.midpoint j = m at *
  generalize (x.shortest .up).toRat = q at *
  obtain ⟨le, ge⟩ := close
  obtain ⟨nonneg, far⟩ | ⟨neg, far⟩ := abs_cases (q - m) <;> linarith

/-- The double rounds to the single, as its decimal does. -/
theorem roundsTo_of_ne (other : x.rank ≠ 0x15ae43fd) :
    single.RoundsTo (double.value y.rank) x.rank := by
  have upper := value_le_midpoint widened
  have lower := midpoint_le_value widened
  obtain even | odd := Nat.mod_two_eq_zero_or_one x.rank
  · exact ⟨upper.lt_or_eq.imp_right fun same => ⟨same, even⟩, fun positive =>
      (lower positive).lt_or_eq.imp_right fun same => ⟨same.symm, even⟩⟩
  · have before := Nat.sub_add_cancel (show 1 ≤ x.rank by omega)
    exact ⟨.inl (upper.lt_of_ne (value_ne_midpoint widened odd other (.inr rfl))), fun positive =>
      .inl ((lower positive).lt_of_ne' (value_ne_midpoint widened odd other (.inl before)))⟩

end Narrowed

/-- The magnitude whose double is halfway to the next single. -/
theorem narrow_of_rank {x : Finite .single} {y : Finite .double}
    (widened : widenByText (.finite x) = .finite y) (rank : x.rank = 0x15ae43fd) :
    double.value y.rank = single.midpoint x.rank ∧
      convert .single (.finite y) = .finite ⟨x.negative, 0x15ae43fe, by decide⟩ := by
  obtain ⟨negative, _, _⟩ := x
  cases rank
  have read : ∀ negative, widenByText (.finite ⟨negative, 0x15ae43fd, by decide⟩) =
      .finite ⟨negative, 0x3ab5c87fb0000000, by decide⟩ := by decide +kernel
  have back : ∀ negative,
      convert .single (.finite ⟨negative, 0x3ab5c87fb0000000, by decide⟩ : Double) =
        .finite ⟨negative, 0x15ae43fe, by decide⟩ := by decide +kernel
  obtain rfl := Binary.finite.inj ((read negative).symm.trans widened)
  refine ⟨?_, back negative⟩
  rw [Format.value, Format.midpoint_eq, div_eq_div_iff (by positivity) (by positivity)]
  exact_mod_cast (by decide +kernel : double.magnitude 0x3ab5c87fb0000000 * (2 * 2 ^ single.scale) =
    (single.magnitude 0x15ae43fd + single.magnitude 0x15ae43fe) * 2 ^ double.scale)

end Binary

/-- A finite single becomes a finite number in JSON, which is also the number of the value that the
tree becomes, and which is narrowed to the single again. Only where it is halfway between two
singles, as it is for one magnitude, is it narrowed to the other of them. -/
theorem single_narrowed (identity : Nat) (x : Binary.Finite .single) :
    let tree := (Value.single (.finite x)).toJson
    ∃ y : Binary.Finite .double, tree = .number (.float y) ∧
      (tree.toValue identity).number? = some (.finite y) ∧
      (x.rank ≠ 0x15ae43fd → Binary.convert .single (.finite y) = .finite x) ∧
      (x.rank = 0x15ae43fd → double.value y.rank = single.midpoint x.rank ∧
        Binary.convert .single (.finite y) = .finite ⟨x.negative, 0x15ae43fe, by decide⟩) := by
  obtain ⟨y, widened, sign, _⟩ := Binary.exists_widenByText x
  have tree := toJson_single_of_widenByText widened
  rw [tree]
  exact ⟨y, rfl, rfl,
    fun other => Binary.convert_of_roundsTo sign (Binary.roundsTo_of_ne widened other),
    Binary.narrow_of_rank widened⟩

/-- A single that does not come back. -/
theorem single_narrowed_astray :
    let x : Binary.Finite .single := ⟨false, 0x15ae43fd, by decide⟩
    let y : Binary.Finite .double := ⟨false, 0x3ab5c87fb0000000, by decide⟩
    (Value.single (.finite x)).toJson = .number (.float y) ∧
      Binary.convert .single (.finite y) ≠ .finite x :=
  ⟨toJson_single_of_widenByText (by decide +kernel), by decide +kernel⟩

end Untyped
