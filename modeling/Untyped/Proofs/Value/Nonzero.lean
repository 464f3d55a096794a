import Mathlib
import Untyped.Proofs.Value.Narrowed

/-! The truth of numbers. It is told by the number that a value widens to, because widening is
exact: no single and no integer becomes zero, or stops being it, and subnormals are no exception. -/
namespace Untyped
open Format (double single)

namespace Binary

variable {f : Format}

/-- Whether two data are equal as numbers: zeros of either sign are, and NaN equals nothing. -/
def equals : Binary f → Binary f → Bool
  | .finite x, .finite y => x.units == y.units
  | .infinite s, .infinite t => s == t
  | _, _ => false

def zero (f : Format) : Binary f := ofRank f false 0

theorem Finite.units_eq_zero_iff (x : Finite f) : x.units = 0 ↔ x.rank = 0 := by
  have magnitude : f.magnitude x.rank = 0 ↔ x.rank = 0 :=
    f.magnitude_strictMono.injective.eq_iff' f.magnitude_zero
  rw [units, ← magnitude, Finite.magnitude]
  split <;> omega

theorem ofRank_zero (nonempty : 0 < f.count) (negative : Bool) :
    ofRank f negative 0 = .finite ⟨negative, 0, nonempty⟩ := dif_pos nonempty

theorem equals_zero (nonempty : 0 < f.count) (x : Binary f) : x.equals (zero f) = x.isZero := by
  have units : (⟨false, 0, nonempty⟩ : Finite f).units = 0 := (Finite.units_eq_zero_iff _).2 rfl
  rw [zero, ofRank_zero nonempty]
  cases x with
  | finite x =>
    rw [equals, isZero, Finite.isZero, units, Bool.eq_iff_iff, beq_iff_eq, beq_iff_eq]
    exact x.units_eq_zero_iff
  | _ => rfl

theorem isZero_iff_eq_ofRank (nonempty : 0 < f.count) (x : Binary f) :
    x.isZero ↔ ∃ negative, x = ofRank f negative 0 := by
  cases x with
  | finite x =>
    obtain ⟨negative, rank, below⟩ := x
    simp [isZero, Finite.isZero, ofRank_zero nonempty]
  | _ => simp [isZero, ofRank_zero nonempty]

theorem isZero_finite_eq_iff {g : Format} {x : Finite f} {y : Finite g} :
    (finite x).isZero = (finite y).isZero ↔ (x.rank = 0 ↔ y.rank = 0) := by
  rw [isZero, isZero, Finite.isZero, Finite.isZero, Bool.eq_iff_iff, beq_iff_eq, beq_iff_eq]

theorem isZero_eq_of_equals {x y : Binary f} (same : x.equals y) : x.isZero = y.isZero := by
  cases x with
  | finite x =>
    cases y with
    | finite y =>
      have units : x.units = y.units := beq_iff_eq.1 same
      rw [isZero_finite_eq_iff, ← x.units_eq_zero_iff, ← y.units_eq_zero_iff, units]
    | _ => cases same
  | infinite s =>
    cases y with
    | infinite t => rfl
    | _ => cases same
  | nan => cases same

end Binary

theorem Format.exists_value_eq_single (j : Nat) : ∃ rank, double.value rank = single.value j := by
  have few := two_mul_single_fractions_lt
  obtain ⟨k, fits, _, here⟩ := single.exists_eq_mul_spacing j
  have halves : k * 2 ^ (single.shift j + 1) = 2 * single.magnitude j := by
    rw [here, spacing]
    ring
  obtain ⟨rank, same⟩ := exists_value_eq_halves
    (show k ≤ 2 * double.fractions by omega) (single.shift j + 1)
  refine ⟨rank, ?_⟩
  rw [same, halves, value, Nat.cast_mul, Nat.cast_two, mul_div_mul_left _ _ two_ne_zero]

namespace Binary

/-- A finite single widens to a double of its sign and of the same value. -/
theorem exists_convert_single (x : Finite .single) :
    ∃ y : Finite .double, convert .double (.finite x) = .finite y ∧ y.negative = x.negative ∧
      double.value y.rank = single.value x.rank := by
  obtain ⟨rank, same⟩ := Format.exists_value_eq_single x.rank
  have inside : rank < double.count := by
    rw [← double.value_strictMono.lt_iff_lt, same]
    calc single.value x.rank < single.value single.count := single.value_strictMono x.rank_lt
      _ = 2 ^ 128 := Format.single_value_count
      _ < 2 ^ 1024 := pow_lt_pow_right₀ one_lt_two (by decide)
      _ = double.value double.count := Format.double_value_count.symm
  let y : Finite .double := ⟨x.negative, rank, inside⟩
  have rounds : double.RoundsTo (single.value x.rank) y.rank := same ▸ double.roundsTo_value rank
  exact ⟨y, convert_of_roundsTo (y := y) rfl rounds, rfl, same⟩

theorem isZero_convert_single (x : Single) : (x.convert .double).isZero = x.isZero := by
  cases x with
  | finite x =>
    obtain ⟨y, widened, _, same⟩ := exists_convert_single x
    have zero : y.rank = 0 ↔ x.rank = 0 := by
      rw [← double.value_strictMono.injective.eq_iff' double.value_zero, same,
        single.value_strictMono.injective.eq_iff' single.value_zero]
    rw [widened, isZero_finite_eq_iff, zero]
  | _ => rfl

theorem isZero_ofInt_int32 (n : Int32) : (ofInt .double n.toInt).isZero = (n == 0) := by
  have low := n.le_toInt
  have high := n.toInt_lt
  obtain ⟨x, widened, _, zero⟩ := exists_ofInt (k := n.toInt) (by omega)
  rw [widened, isZero, Bool.eq_iff_iff, zero, beq_iff_eq, ← Int32.toInt_inj, Int32.toInt_zero]

end Binary

/-- A number is true exactly if what it widens to is not zero. -/
theorem Value.truth_eq_not_isZero {v : Value} {x : Double} (number : v.number? = some x) :
    v.truth = !x.isZero := by
  cases v with
  | double y =>
    obtain rfl := Option.some.inj number
    rfl
  | single y =>
    obtain rfl := Option.some.inj number
    rw [truth, Binary.isZero_convert_single]
  | int n =>
    obtain rfl := Option.some.inj number
    rw [truth, Binary.isZero_ofInt_int32, bne]
  | _ => cases number

/-- The truth of a number is that of the double it widens to: it is false exactly if that equals
zero, which are the zeros of either sign and not NaN. So numbers of any two kinds are true together
if their doubles are equal or both NaN; and neither a single nor an integer becomes zero by widening
or stops being it. -/
theorem truth_number? :
    (∀ (v : Value) (x : Double), v.number? = some x →
      (v.truth ↔ ¬x.equals (.zero double)) ∧
      (¬v.truth ↔ ∃ negative, x = .ofRank double negative 0)) ∧
    (∀ (v w : Value) (x y : Double), v.number? = some x → w.number? = some y →
      x.equals y ∨ x = .nan ∧ y = .nan → v.truth = w.truth) ∧
    (∀ x : Single, (x.convert .double).equals (.zero double) = x.equals (.zero single)) ∧
    ∀ n : Int32, (Binary.ofInt .double n.toInt).equals (.zero double) = (n == 0) := by
  have wide : 0 < double.count := by decide
  have narrow : 0 < single.count := by decide
  refine ⟨fun v x number => ⟨?_, ?_⟩, fun v w x y left right same => ?_, fun x => ?_, fun n => ?_⟩
  · rw [Value.truth_eq_not_isZero number, Binary.equals_zero wide, Bool.not_eq_true',
      Bool.not_eq_true]
  · rw [← Binary.isZero_iff_eq_ofRank wide, Value.truth_eq_not_isZero number, Bool.not_eq_true',
      Bool.not_eq_false]
  · rw [Value.truth_eq_not_isZero left, Value.truth_eq_not_isZero right]
    obtain equal | ⟨rfl, rfl⟩ := same
    · rw [Binary.isZero_eq_of_equals equal]
    · rfl
  · rw [Binary.equals_zero wide, Binary.equals_zero narrow, Binary.isZero_convert_single]
  · rw [Binary.equals_zero wide, Binary.isZero_ofInt_int32]

/-- The least single is true though it is subnormal, and the negative zero of a double is as false
as the integer, which has no sign. -/
theorem truth_number?_least :
    let least := Value.single (.finite ⟨true, 1, by decide⟩)
    let minusZero := Value.double (.finite ⟨true, 0, by decide⟩)
    (∃ x, least.number? = some x ∧ (least.truth ↔ ¬x.equals (.zero double)) ∧ least.truth) ∧
      ∃ x y, minusZero.number? = some x ∧ (Value.int 0).number? = some y ∧ x.equals y ∧
        minusZero.truth = (Value.int 0).truth := by
  intro least minusZero
  obtain ⟨told, agree, _⟩ := truth_number?
  have equal : Binary.equals (.finite ⟨true, 0, by decide⟩) (.ofInt .double (0 : Int32).toInt) := by
    decide +kernel
  exact ⟨⟨_, rfl, (told least _ rfl).1, rfl⟩,
    ⟨_, _, rfl, rfl, equal, agree minusZero (.int 0) _ _ rfl rfl (.inl equal)⟩⟩

end Untyped
