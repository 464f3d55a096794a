import Mathlib
import Untyped.Proofs.Json.Exponents
import Untyped.Proofs.Value.Integers

/-! Decimal constants whose digits and whose power of ten are both doubles. They are rounded
once, unless their exponent is too long to be read. -/
namespace Untyped
open Binary (Finite)
open Format (double)
open Json (Blank NumberToken)

namespace Json.NumberToken

variable {t : NumberToken}

section Constant

variable (short : t.significand ≤ 2 ^ 53)

include short

theorem significand_numeral_of_short : t.numeral.significand = t.significand := by
  rw [Numeral.significand, mantissa_numeral (by omega)]

theorem number?_of_long_exponent (marked : t.fraction ≠ [] ∨ t.exponent ≠ none)
    (positive : 0 < t.significand) (long : 2 ^ 31 ≤ t.numeral.power) : t.number? = none := by
  rw [number?_of_marked marked]
  refine Numeral.toRounded_of_long_large (by omega) ?_
  rw [significand_numeral_of_short short]
  omega

variable (few : t.power.natAbs ≤ 22)

include few

theorem magnitude_le_of_few : t.numeral.magnitude ≤ 2 ^ 127 := by
  have power : (10 ^ t.power : ℚ) ≤ 10 ^ ((22 : Nat) : Int) :=
    zpow_le_zpow_right₀ (by norm_num) (by omega)
  have digits : (t.significand : ℚ) ≤ 2 ^ 53 := by exact_mod_cast short
  rw [zpow_natCast] at power
  rw [magnitude_numeral]
  calc (t.significand * 10 ^ t.power : ℚ) ≤ 2 ^ 53 * 10 ^ 22 := by gcongr
    _ ≤ 2 ^ 127 := by norm_num

/-- The double nearest to the number, which is what its digits are scaled to. -/
theorem exists_nearest_constant :
    ∃ x : Finite .double, x.negative = t.negative ∧
      x.IsNearest (Binary.signed t.negative t.numeral.magnitude) ∧
      double.RoundsTo t.numeral.magnitude x.rank ∧
      Numeral.scaled (.ofNat .double t.significand) t.power = some ⟨false, x.rank, x.rank_lt⟩ := by
  have nonneg : 0 ≤ t.numeral.magnitude := by
    rw [magnitude_numeral]
    positivity
  have most := magnitude_le_of_few short few
  have magnitude := t.magnitude_numeral
  generalize t.numeral.magnitude = q at *
  have quotient := Binary.natAbs_num_div_den nonneg
  obtain ⟨rank, own⟩ : ∃ rank, double.nearestRank q.num.natAbs q.den = rank := ⟨_, rfl⟩
  have finite : rank < double.count := by
    rw [← own]
    exact Binary.double_nearestRank_lt q.den_pos (by decide) (quotient.trans_le most)
  have rounds : double.RoundsTo q rank := by
    rw [← quotient]
    exact (double.nearestRank_eq_iff q.den_pos rank).1 own
  obtain ⟨near, scaled, _, _, exact⟩ :=
    Numeral.exists_scaled_rank (by omega) (by omega) (by omega) (magnitude ▸ rounds)
  obtain rfl := exact short few
  refine ⟨⟨t.negative, _, finite⟩, rfl, ?_, rounds, ?_⟩
  · have nearest := Finite.isNearest_of_rank (x := ⟨t.negative, _, finite⟩) q.den_pos own.symm
    rwa [quotient] at nearest
  · rw [scaled, Binary.ofRank, dif_pos finite]
    rfl

theorem exists_constant (marked : t.fraction ≠ [] ∨ t.exponent ≠ none)
    (held : t.significand = 0 ∨ t.numeral.power < 2 ^ 31) :
    ∃ x : Finite .double, x.negative = t.negative ∧
      x.IsNearest (Binary.signed t.negative t.numeral.magnitude) ∧
      t.number? = some (.float x) := by
  have significand : t.numeral.significand = t.significand := significand_numeral_of_short short
  have power := t.power_eq
  obtain ⟨x, sign, nearest, rounds, scaled⟩ := exists_nearest_constant short few
  have own : (⟨t.negative, x.rank, x.rank_lt⟩ : Finite .double) = x := by rw [← sign]
  refine ⟨x, sign, nearest, ?_⟩
  rw [number?_of_marked marked]
  obtain low | high := Nat.lt_or_ge t.numeral.power.natAbs 0x80000000
  · have position : t.numeral.position + t.numeral.power = t.power := by
      rw [position_numeral (by omega), power]
      omega
    have converted : t.numeral.toFloat t.power = .ok (.float x) := by
      rw [← own]
      exact Numeral.toFloat_of_scaled (by rw [significand, scaled])
    rw [Numeral.toRounded_of_short low, position, converted]
    rfl
  · -- a long exponent is not negative here, for then the scale would be far below its bound
    have zero : t.significand = 0 := held.resolve_right (by omega)
    have nothing : t.numeral.magnitude = 0 := by
      rw [magnitude_numeral, zero, Nat.cast_zero, zero_mul]
    have rank : x.rank = 0 := Nat.le_zero.1 (rounds.rank_le (by rw [nothing, double.value_zero]))
    have signedZero : Number.signedZero t.negative = .float x := by
      rw [← own, Number.signedZero]
      simp only [rank]
    rw [Numeral.toRounded_of_long_zero high (.inl (significand.trans zero))]
    exact congrArg some signedZero

end Constant

theorem lone_zero_nil (leading : Digit) : leading = 0 → ([] : List Digit) = [] := fun _ => rfl

/-- One, written behind zeros of a fraction, with the exponent that moves the point back to it. -/
def shiftedOne (zeros : Nat) : NumberToken :=
  ⟨false, .zero, [], lone_zero_nil .zero, List.replicate zeros Digit.zero ++ Digit.ofNat 1,
    some ⟨false, none, Digit.ofNat (zeros + 1), Digit.ofNat_ne_nil _⟩⟩

theorem significand_shiftedOne (zeros : Nat) : (shiftedOne zeros).significand = 1 := by
  have lead : Digit.toNat [Digit.zero] = 0 := rfl
  change Digit.toNat ([Digit.zero] ++ (List.replicate zeros Digit.zero ++ Digit.ofNat 1)) = 1
  rw [← List.append_assoc, Digit.toNat_append, Digit.toNat_append, Digit.toNat_replicate, lead,
    Digit.toNat_ofNat, Nat.zero_mul, Nat.zero_add, Nat.zero_mul, Nat.zero_add]

theorem exponent_shiftedOne (zeros : Nat) : (shiftedOne zeros).numeral.power = zeros + 1 := by
  have digits := Digit.toNat_ofNat (zeros + 1)
  rw [power_numeral]
  change ((Digit.toNat (Digit.ofNat (zeros + 1)) : Nat) : Int) = zeros + 1
  rw [digits, Nat.cast_succ]

theorem power_shiftedOne (zeros : Nat) : (shiftedOne zeros).power = 0 := by
  have places : (shiftedOne zeros).fraction.length = zeros + 1 := by
    change (List.replicate zeros Digit.zero ++ Digit.ofNat 1).length = _
    rw [Digit.ofNat, if_pos (by decide), List.length_append, List.length_replicate,
      List.length_singleton]
  rw [power_eq, exponent_shiftedOne, places, Nat.cast_succ, sub_self]

theorem marked_shiftedOne (zeros : Nat) :
    (shiftedOne zeros).fraction ≠ [] ∨ (shiftedOne zeros).exponent ≠ none :=
  .inr (Option.some_ne_none _)

end Json.NumberToken

/-- A number with a fraction or an exponent loads as the double nearest to it, of its own sign even
if it is zero, where the digits as a whole number are at most `2 ^ 53` and the power of ten that
scales them is at most `10 ^ 22` and at least `10 ^ (-22)`. Only an exponent that 31 bits do not
hold is out of range, unless all the digits are zero; to bring such a number back into these bounds
the fraction has more than two thousand million digits. -/
theorem loadValue_constant (identity : Nat) (t : NumberToken)
    (marked : t.fraction ≠ [] ∨ t.exponent ≠ none) (short : t.significand ≤ 2 ^ 53)
    (few : t.power.natAbs ≤ 22) (before after : Blank) (text : String)
    (written : text.toList = before.chars ++ t.text ++ after.chars) :
    (t.significand = 0 ∨ t.numeral.power < 2 ^ 31 →
      ∃ x : Finite .double, x.negative = t.negative ∧
        x.IsNearest (Binary.signed t.negative t.numeral.magnitude) ∧
        loadValue identity text = .ok (.double (.finite x))) ∧
    (0 < t.significand → 2 ^ 31 ≤ t.numeral.power → 2 ^ 31 ≤ t.fraction.length + 22 ∧
      ∃ place, loadValue identity text = .error (.malformed .numberOutOfRange place)) := by
  refine ⟨fun held => ?_, fun positive long => ⟨?_, ?_⟩⟩
  · obtain ⟨x, sign, nearest, number⟩ := NumberToken.exists_constant short few marked held
    exact ⟨x, sign, nearest, loadValue_of_spaced written number identity⟩
  · have power := t.power_eq
    omega
  · have outOfRange := NumberToken.number?_of_long_exponent short marked positive long
    exact exists_numberOutOfRange written outOfRange identity

/-- A constant that mixes a fraction and an exponent, with its sign. -/
theorem loadValue_constant_mixed :
    let t : NumberToken := ⟨true, 0, [], fun _ => rfl, [1],
      some ⟨false, some true, [3], List.cons_ne_nil _ _⟩⟩
    (t.fraction ≠ [] ∨ t.exponent ≠ none) ∧ t.significand ≤ 2 ^ 53 ∧ t.power.natAbs ≤ 22 ∧
      "-0.1e-3".toList = Blank.none.chars ++ t.text ++ Blank.none.chars ∧
      (t.significand = 0 ∨ t.numeral.power < 2 ^ 31) ∧
      ∃ x : Finite .double, x.negative = true ∧ x.IsNearest (-(1 / 10000)) ∧
        loadValue 0 "-0.1e-3" = .ok (.double (.finite x)) := by
  intro t
  have marked : t.fraction ≠ [] ∨ t.exponent ≠ none := .inl (List.cons_ne_nil _ _)
  have short : t.significand ≤ 2 ^ 53 := by decide
  have few : t.power.natAbs ≤ 22 := by decide
  have written : "-0.1e-3".toList = Blank.none.chars ++ t.text ++ Blank.none.chars := by decide
  have held : t.significand = 0 ∨ t.numeral.power < 2 ^ 31 := by decide
  have magnitude : t.numeral.magnitude = 1 / 10000 := by
    have significand : t.significand = 1 := by decide
    have power : t.power = -4 := by decide
    rw [t.magnitude_numeral, significand, power]
    norm_num
  obtain ⟨x, sign, nearest, loads⟩ :=
    (loadValue_constant 0 t marked short few _ _ _ written).1 held
  rw [magnitude] at nearest
  exact ⟨marked, short, few, written, held, x, sign, nearest, loads⟩

/-- One is written with its digit as the significand and nothing to scale it by, but behind so many
zeros that the exponent is too long to be read. -/
theorem loadValue_constant_long :
    let t := NumberToken.shiftedOne (2 ^ 31 - 1)
    let text := String.ofList t.text
    (t.fraction ≠ [] ∨ t.exponent ≠ none) ∧ t.significand = 1 ∧ t.power = 0 ∧
      text.toList = Blank.none.chars ++ t.text ++ Blank.none.chars ∧
      (∃ place, loadValue 0 text = .error (.malformed .numberOutOfRange place)) ∧
      ¬∃ x : Binary .double, loadValue 0 text = .ok (.double x) := by
  intro t text
  have significand : t.significand = 1 := NumberToken.significand_shiftedOne _
  have power : t.power = 0 := NumberToken.power_shiftedOne _
  have marked : t.fraction ≠ [] ∨ t.exponent ≠ none := NumberToken.marked_shiftedOne _
  have written : text.toList = Blank.none.chars ++ t.text ++ Blank.none.chars := by
    rw [String.toList_ofList]
    exact (List.append_nil t.text).symm
  have exponent : t.numeral.power = (2 ^ 31 - 1 : Nat) + 1 := NumberToken.exponent_shiftedOne _
  have outOfRange : t.number? = none :=
    NumberToken.number?_of_long_exponent (by omega) marked (by omega) (by omega)
  obtain ⟨place, refused⟩ := exists_numberOutOfRange written outOfRange 0
  refine ⟨marked, significand, power, written, ⟨place, refused⟩, fun ⟨x, loads⟩ => ?_⟩
  rw [refused] at loads
  cases loads

end Untyped
