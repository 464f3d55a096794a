import Mathlib
import Untyped.Proofs.Decimal.Layout
import Untyped.Value.Json
import Untyped.Value.Truth

/-! The truth of a value that becomes a tree and a value again. It is kept but for numbers that JSON
cannot write and for references that hold a false scalar. -/
namespace Untyped

namespace Binary

theorem write_finite (x : Finite .single) :
    write Value.style (.finite x) =
      if x.negative then '-' :: (x.shortest .up).positional else (x.shortest .up).positional := rfl

theorem widenByText_finite (x : Finite .single) :
    let d := x.shortest .up
    widenByText (.finite x) = nearest .double x.negative (Digit.toNat (d.whole ++ d.fraction))
      (10 ^ d.fraction.length) := by
  intro d
  rw [widenByText, write_finite, read?_positional, Option.getD_some]

/-- The double that a finite single's text stands for is finite, has its sign, and is zero only for
zero. -/
theorem exists_widenByText (x : Finite .single) :
    ∃ y : Finite .double, widenByText (.finite x) = .finite y ∧ y.negative = x.negative ∧
      (y.isZero = x.isZero) := by
  have hden : 0 < 10 ^ (x.shortest .up).fraction.length := Nat.pow_pos (by omega)
  have denotes := (x.shortest .up).toNat_whole_append_fraction
  have rounds := x.roundsTo_shortest .up
  rw [widenByText_finite]
  generalize Digit.toNat ((x.shortest .up).whole ++ (x.shortest .up).fraction) = num at *
  generalize (x.shortest .up).fraction.length = places at *
  have cast : ((10 ^ places : Nat) : ℚ) = 10 ^ places := by norm_cast
  have finite : Format.double.nearestRank num (10 ^ places) < Format.double.count := by
    apply double_nearestRank_lt (k := 128) hden (by decide)
    rw [cast, denotes]
    calc (x.shortest .up).toRat ≤ Format.single.midpoint x.rank := rounds.le_midpoint
      _ ≤ Format.single.value (x.rank + 1) := (Format.single.midpoint_lt_value x.rank).le
      _ ≤ Format.single.value Format.single.count :=
        Format.single.value_strictMono.monotone x.rank_lt
      _ = 2 ^ 128 := Format.single_value_count
  have zero_iff : Format.double.nearestRank num (10 ^ places) = 0 ↔ x.rank = 0 := by
    constructor
    · intro nothing
      by_contra nonzero
      have positive : 0 < x.rank := by omega
      have least : 0 < Format.double.nearestRank num (10 ^ places) := by
        apply Format.double.nearestRank_pos hden
        -- half the least single is at least the least double
        have finer : Format.single.scale + 1 ≤ Format.double.scale := by decide
        rw [cast, denotes, Format.gap_zero]
        calc (1 : ℚ) / 2 ^ Format.double.scale ≤ 1 / 2 ^ (Format.single.scale + 1) :=
              one_div_pow_le_one_div_pow_of_le one_le_two finer
          _ = Format.single.midpoint 0 := Format.single.midpoint_zero.symm
          _ ≤ (x.shortest .up).toRat := x.midpoint_zero_le_shortest .up positive
      omega
    · intro zero
      apply Format.double.nearestRank_of_eq_value hden
      rw [cast, denotes, x.shortest_zero .up zero, Format.value_zero]
      simp [Decimal.toRat]
  refine ⟨_, nearest_of_lt finite, rfl, ?_⟩
  rw [Finite.isZero, Finite.isZero, Bool.eq_iff_iff, beq_iff_eq, beq_iff_eq]
  exact zero_iff

end Binary

namespace Json

/-- A scalar that is false as a value: null, false, a number that is zero, or the empty string. -/
def Void (j : Json) : Prop :=
  match j.raw with
  | .null => True
  | .bool b => b = false
  | .number (.integer k _) => k = 0
  | .number (.float x) => x.isZero
  | .string s => s = ""
  | _ => False

def isContainer (j : Json) : Bool :=
  match j.raw with
  | .array _ => true
  | .object _ => true
  | _ => false

theorem not_void_of_isContainer {j : Json} (h : j.isContainer) : ¬j.Void := by
  unfold isContainer at h
  unfold Void
  split at h
  next hr => rw [hr]; exact id
  next hr => rw [hr]; exact id
  next => cases h

theorem truth_toValue_integer {k : Int} (h : -0x8000000000000000 ≤ k ∧ k < 0x10000000000000000) :
    (Number.integer k h).toValue.truth ↔ k ≠ 0 := by
  by_cases small : -0x80000000 ≤ k ∧ k < 0x80000000
  · have same : (Int32.ofInt k).toInt = k := Int32.toInt_ofInt_of_le (by omega) (by omega)
    have zero : Int32.ofInt k = 0 ↔ k = 0 := by rw [← Int32.toInt_inj, same, Int32.toInt_zero]
    rw [Number.toValue, if_pos small, Value.truth, bne_iff_ne, ne_eq, zero]
  · obtain ⟨x, hx, _, zero⟩ := Binary.exists_ofInt (k := k) (by omega)
    rw [Number.toValue, if_neg small, Number.toDouble, hx, Value.truth, Binary.isZero, ne_eq, ← zero]
    simp

/-- A tree is true as a value unless it is a scalar that is false. -/
theorem truth_toValue_iff (identity : Nat) (j : Json) : (j.toValue identity).truth ↔ ¬j.Void := by
  obtain ⟨raw, ordered⟩ := j
  cases raw with
  | null => simp [toValue, Void, Value.truth]
  | bool b => cases b <;> simp [toValue, Void] <;> decide
  | number n =>
    cases n with
    | integer k h => exact truth_toValue_integer h
    | float x => simp [toValue, Number.toValue, Void, Value.truth, Binary.isZero]
  | string s => simp [toValue, Void, Value.truth]
  | array items => simp [toValue, Void, Value.truth]
  | object members => simp [toValue, Void, Value.truth]

end Json

namespace Value

/-- The values that are true and are written as a tree that is false: numbers that JSON cannot write
become null, and a reference becomes the scalar that it holds. -/
def LosesTruth : Value → Prop
  | double x => x.finite? = none
  | single x => x.finite? = none
  | ref r => ∃ j, r.json? = some j ∧ j.Void
  | _ => False

theorem truth_of_losesTruth {v : Value} (h : v.LosesTruth) : v.truth = true := by
  cases v with
  | double x =>
    cases x with
    | finite x => cases h
    | _ => rfl
  | single x =>
    cases x with
    | finite x => cases h
    | _ => rfl
  | ref r => rfl
  | int n => exact absurd h id
  | text s => exact absurd h id
  | null => exact absurd h id

theorem void_toJson_iff (v : Value) : v.toJson.Void ↔ v.truth = false ∨ v.LosesTruth := by
  cases v with
  | double x =>
    cases x with
    | finite x =>
      simp [toJson, Json.ofDouble, Json.number, Json.Void, truth, Binary.isZero, LosesTruth,
        Binary.finite?]
    | _ => simp [toJson, Json.ofDouble, Json.null, Json.Void, LosesTruth, Binary.finite?]
  | single x =>
    cases x with
    | finite x =>
      obtain ⟨y, hy, _, zero⟩ := Binary.exists_widenByText x
      simp [toJson, hy, Json.ofDouble, Json.number, Json.Void, truth, Binary.isZero, LosesTruth,
        Binary.finite?, zero]
    | nan =>
      have same : Binary.widenByText .nan = .nan := rfl
      simp [toJson, same, Json.ofDouble, Json.null, Json.Void, LosesTruth, Binary.finite?]
    | infinite negative =>
      have same : Binary.widenByText (.infinite negative) = .infinite negative := by
        cases negative <;> rfl
      simp [toJson, same, Json.ofDouble, Json.null, Json.Void, LosesTruth, Binary.finite?]
  | int n =>
    have zero : n = 0 ↔ n.toInt = 0 := by rw [← Int32.toInt_inj, Int32.toInt_zero]
    simp [toJson, Json.Number.ofInt32, Json.number, Json.Void, truth, LosesTruth, zero]
  | text s => simp [toJson, Json.string, Json.Void, truth, LosesTruth]
  | ref r =>
    cases held : r.json? with
    | none => simp [toJson, held, Json.ofMembers, Json.Void, truth, LosesTruth]
    | some j => simp [toJson, held, truth, LosesTruth]
  | null => simp [toJson, Json.null, Json.Void, truth]

end Value

/-- A value is as true as what it becomes as a tree and a value again, but for NaN, infinities and
references that hold a false scalar. No finite single is among them, though it becomes the double of
its text, nor is a reference that holds a container or no tree at all. -/
theorem truth_toValue_toJson (identity : Nat) :
    (∀ v : Value, (v.toJson.toValue identity).truth = v.truth ↔ ¬v.LosesTruth) ∧
    (∀ x : Binary.Finite .single, let v := Value.single (.finite x)
      (v.toJson.toValue identity).truth = v.truth) ∧
    ∀ r : Reference, r.json?.all Json.isContainer → let v := Value.ref r
      (v.toJson.toValue identity).truth = v.truth := by
  have keeps (v : Value) : (v.toJson.toValue identity).truth = v.truth ↔ ¬v.LosesTruth := by
    have back := v.toJson.truth_toValue_iff identity
    rw [v.void_toJson_iff] at back
    constructor
    · intro same loses
      have isTrue := Value.truth_of_losesTruth loses
      exact back.1 (same.trans isTrue) (.inr loses)
    · intro keeps
      rw [Bool.eq_iff_iff, back, not_or, Bool.not_eq_false]
      exact ⟨And.left, fun isTrue => ⟨isTrue, keeps⟩⟩
  refine ⟨keeps, fun x => ?_, fun r h => ?_⟩
  · exact (keeps _).2 (by simp [Value.LosesTruth, Binary.finite?])
  · apply (keeps _).2
    rintro ⟨j, held, void⟩
    rw [held] at h
    exact Json.not_void_of_isContainer h void

/-- A reference that holds an empty list stays true, one that holds the empty string does not. -/
theorem truth_toValue_toJson_empty :
    let list : Reference := .mk listPath 1 (.json (.ofItems []))
    let text : Reference := .mk "/saved" 2 (.json (.string ""))
    list.json?.all Json.isContainer ∧
      ((Value.ref list).toJson.toValue 3).truth = (Value.ref list).truth ∧
      ((Value.ref text).toJson.toValue 3).truth ≠ (Value.ref text).truth := by
  intro list text
  have held : list.json?.all Json.isContainer := rfl
  obtain ⟨keeps, _, container⟩ := truth_toValue_toJson 3
  have loses : (Value.ref text).LosesTruth := ⟨.string "", rfl, rfl⟩
  exact ⟨held, container list held, fun same => (keeps _).1 same loses⟩

end Untyped
