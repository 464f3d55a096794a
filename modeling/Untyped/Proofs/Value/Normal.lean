import Mathlib
import Untyped.Proofs.Binary.Nearest
import Untyped.Value.Json

/-! What a tree is after it has been a value. Only at the top does it change, and only a truth value
or an integer that 32 bits do not hold; both become floating-point numbers. -/
namespace Untyped

namespace Json

/-- The tree is one that no value is written as: a bare truth value, or a bare integer beyond 32
bits. -/
def Altered (j : Json) : Prop :=
  match j.raw with
  | .bool _ => True
  | .number (.integer k _) => ¬(-0x80000000 ≤ k ∧ k < 0x80000000)
  | _ => False

def truthNumber (b : Bool) : Binary.Finite .double :=
  ⟨false, if b then 0x3ff0000000000000 else 0, by cases b <;> decide⟩

/-- The tree with a bare truth value as its number, and a bare integer beyond 32 bits as a double. -/
def normal (j : Json) : Json :=
  match j.raw with
  | .bool b => .number (.float (truthNumber b))
  | .number (.integer k _) =>
    if -0x80000000 ≤ k ∧ k < 0x80000000 then j else .ofDouble (.ofInt .double k)
  | _ => j

theorem toRat_truthNumber (b : Bool) : (truthNumber b).toRat = if b then 1 else 0 := by
  cases b
  · exact Format.double.value_zero
  · have start := Format.double.value_of_binade 1022 (Nat.zero_le Format.double.fractions)
    have whole : (2 : ℚ) ^ Format.double.scale = 2 ^ 52 * 2 ^ 1022 := pow_add 2 52 1022
    simp only [Nat.add_zero] at start
    rw [Format.double_fractions_cast, whole, ← mul_div_assoc, div_self (by positivity)] at start
    exact start

theorem widenByText_ofBool (b : Bool) :
    Binary.widenByText (.ofNat .single (if b then 1 else 0)) = .finite (truthNumber b) := by
  cases b <;> decide +kernel

theorem normal_of_not_altered {j : Json} (h : ¬j.Altered) : j.normal = j := by
  unfold normal
  split
  next b hb =>
    rw [Altered, hb] at h
    exact absurd trivial h
  next k _ hk =>
    rw [Altered, hk] at h
    exact if_pos (not_not.1 h)
  next => rfl

theorem normal_bool (b : Bool) : (bool b).normal = .number (.float (truthNumber b)) := rfl

theorem normal_integer {k : Int} (h : -0x8000000000000000 ≤ k ∧ k < 0x10000000000000000)
    (great : ¬(-0x80000000 ≤ k ∧ k < 0x80000000)) :
    (number (.integer k h)).normal = ofDouble (.ofInt .double k) := if_neg great

theorem exists_normal_integer {k : Int} (h : -0x8000000000000000 ≤ k ∧ k < 0x10000000000000000)
    (great : ¬(-0x80000000 ≤ k ∧ k < 0x80000000)) :
    ∃ x : Binary.Finite .double,
      (number (.integer k h)).normal = .number (.float x) ∧ x.IsNearest k := by
  obtain ⟨x, hx, nearest, _⟩ := Binary.exists_ofInt (k := k) (by omega)
  refine ⟨x, ?_, nearest⟩
  rw [normal_integer h great, hx]
  rfl

theorem exists_normal_of_altered {j : Json} (h : j.Altered) :
    ∃ x, j.normal = .number (.float x) := by
  obtain ⟨raw, ordered⟩ := j
  cases raw with
  | null => exact absurd h id
  | bool b => exact ⟨truthNumber b, rfl⟩
  | number n =>
    cases n with
    | integer k inRange =>
      obtain ⟨x, hx, _⟩ := exists_normal_integer inRange h
      exact ⟨x, hx⟩
    | float x => exact absurd h id
  | string s => exact absurd h id
  | array items => exact absurd h id
  | object members => exact absurd h id

theorem normal_not_altered (j : Json) : ¬j.normal.Altered := by
  by_cases h : j.Altered
  · obtain ⟨x, hx⟩ := exists_normal_of_altered h
    rw [hx]
    exact id
  · rwa [normal_of_not_altered h]

theorem normal_normal (j : Json) : j.normal.normal = j.normal :=
  normal_of_not_altered j.normal_not_altered

theorem normal_eq_null_iff (j : Json) : j.normal = null ↔ j = null := by
  by_cases h : j.Altered
  · obtain ⟨x, hx⟩ := exists_normal_of_altered h
    rw [hx]
    constructor
    · intro eq
      exact absurd (congrArg raw eq) (by simp [number, null])
    · intro eq
      rw [eq] at h
      exact absurd h id
  · rw [normal_of_not_altered h]

theorem toJson_toValue_number (n : Number) : n.toValue.toJson = (number n).normal := by
  cases n with
  | float x => rfl
  | integer k h =>
    by_cases small : -0x80000000 ≤ k ∧ k < 0x80000000
    · have same : (Int32.ofInt k).toInt = k := Int32.toInt_ofInt_of_le (by omega) (by omega)
      have kept : (number (.integer k h)).normal = number (.integer k h) :=
        normal_of_not_altered (not_not.2 small)
      rw [Number.toValue, if_pos small, kept, Value.toJson]
      simp only [Number.ofInt32, same]
    · rw [Number.toValue, if_neg small, normal_integer h small]
      rfl

/-- A tree that has been a value is in normal form. -/
theorem toJson_toValue_eq (identity : Nat) (j : Json) : (j.toValue identity).toJson = j.normal := by
  obtain ⟨raw, ordered⟩ := j
  cases raw with
  | null => rfl
  | bool b =>
    change ofDouble (Binary.widenByText _) = _
    rw [widenByText_ofBool]
    rfl
  | number n => exact toJson_toValue_number n
  | string s => rfl
  | array items => rfl
  | object members => rfl

end Json

namespace Value

theorem toJson_not_altered {v : Value}
    (h : ∀ r j, v = .ref r → r.json? = some j → ¬j.Altered) : ¬v.toJson.Altered := by
  cases v with
  | double x => cases x <;> exact id
  | single x =>
    rw [toJson]
    cases x.widenByText <;> exact id
  | int n =>
    have := n.le_toInt
    have := n.toInt_lt
    exact not_not.2 ⟨by omega, by omega⟩
  | text s => exact id
  | ref r =>
    rw [toJson]
    cases held : r.json? with
    | none => exact id
    | some j => exact h r j rfl held
  | null => exact id

end Value

/-- A tree that becomes a value and a tree again is in normal form: unaltered, unless it is a bare
truth value, which is its number, or a bare integer beyond 32 bits, which is the nearest double.
Nothing more happens the second time, nothing but null becomes null, and all that values are written
as comes back, where no reference holds a bare tree of those two kinds. -/
theorem toJson_toValue_normal (identity : Nat) :
    (∀ j : Json, (j.toValue identity).toJson = j.normal) ∧
    (∀ j : Json, ¬j.Altered → j.normal = j) ∧
    (∀ b, ∃ x : Binary.Finite .double, (Json.bool b).normal = .number (.float x) ∧
      x.negative = false ∧ x.toRat = if b then 1 else 0) ∧
    (∀ k h, ¬(-0x80000000 ≤ k ∧ k < 0x80000000) → ∃ x : Binary.Finite .double,
      (Json.number (.integer k h)).normal = .number (.float x) ∧ x.IsNearest k) ∧
    (∀ j : Json, j.normal.normal = j.normal) ∧
    (∀ j : Json, j.normal = .null ↔ j = .null) ∧
    ∀ v : Value, (∀ r j, v = .ref r → r.json? = some j → ¬j.Altered) →
      (v.toJson.toValue identity).toJson = v.toJson := by
  refine ⟨Json.toJson_toValue_eq identity, fun _ => Json.normal_of_not_altered, ?_,
    fun _ => Json.exists_normal_integer, Json.normal_normal, Json.normal_eq_null_iff, ?_⟩
  · intro b
    exact ⟨Json.truthNumber b, Json.normal_bool b, rfl, Json.toRat_truthNumber b⟩
  · intro v h
    rw [Json.toJson_toValue_eq, Json.normal_of_not_altered (Value.toJson_not_altered h)]

/-- A truth value and an integer beyond 32 bits stay as they are inside a list. -/
theorem toJson_toValue_normal_nested :
    let tree := Json.ofItems [.bool true, .number (.integer 0x20000000000001 (by decide))]
    let v := Value.ref (.mk "/saved" 4 (.json tree))
    (∀ r j, v = .ref r → r.json? = some j → ¬j.Altered) ∧
      (v.toJson.toValue 5).toJson = v.toJson ∧
      Json.normal (.number (.integer 0x20000000000001 (by decide))) =
        .number (.float ⟨false, 0x4340000000000000, by decide⟩) := by
  intro tree v
  have unaltered : ∀ r j, v = .ref r → r.json? = some j → ¬j.Altered := by
    intro r j hr hj
    obtain rfl := Value.ref.inj hr
    obtain rfl := Option.some.inj hj
    exact id
  obtain ⟨_, _, _, _, _, _, comesBack⟩ := toJson_toValue_normal 5
  have rounded : Binary.ofInt .double 0x20000000000001 =
      .finite ⟨false, 0x4340000000000000, by decide⟩ := by decide +kernel
  refine ⟨unaltered, comesBack v unaltered, ?_⟩
  rw [Json.normal_integer _ (by decide), rounded]
  rfl

end Untyped
