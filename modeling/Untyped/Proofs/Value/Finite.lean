import Mathlib
import Untyped.Proofs.Json.Overflow
import Untyped.Proofs.Value.Integers
import Untyped.Proofs.Value.Reload

/-! What loads is finite at any depth, and nothing but null becomes null: where a number does not fit
the doubles, the text is refused. -/
namespace Untyped
open Binary (Finite)
open Format (double)
open Json (Blank Element NumberToken)

namespace Json

theorem Number.exists_toDouble (n : Number) : ∃ x, n.toDouble = .finite x := by
  cases n with
  | float x => exact ⟨x, rfl⟩
  | integer k h =>
    obtain ⟨x, hx, _⟩ := Binary.exists_ofInt (k := k) (by omega)
    exact ⟨x, hx⟩

namespace NumberToken

theorem le_magnitude_of_number? {t : NumberToken} (none : t.number? = none) :
    (1 - 1 / 2 ^ 51) * 2 ^ 1024 ≤ t.numeral.magnitude ∨ 2 ^ 31 ≤ t.numeral.power := by
  rw [number?, Option.or_eq_none_iff] at none
  exact Numeral.le_magnitude_of_none none.2

theorem magnitude_lt_of_number? {t : NumberToken} {n : Number} (number : t.number? = some n)
    (low : -2 ^ 31 < t.numeral.power) : t.numeral.magnitude < (1 + 1 / 2 ^ 51) * 2 ^ 1024 := by
  obtain ⟨k, inRange, rfl, integer⟩ | ⟨x, rfl, rounded⟩ := number?_cases number
  · obtain ⟨plain, rfl⟩ := plain_of_integer? integer
    have few : (t.whole.natAbs : ℚ) ≤ 2 ^ 64 := by
      exact_mod_cast (by omega : t.whole.natAbs ≤ 2 ^ 64)
    calc t.numeral.magnitude = t.whole.natAbs := plain.magnitude
      _ ≤ 2 ^ 64 := few
      _ < 2 ^ 1024 := pow_lt_pow_right₀ one_lt_two (by norm_num)
      _ ≤ (1 + 1 / 2 ^ 51) * 2 ^ 1024 := le_mul_of_one_le_left (by positivity) (by norm_num)
  · exact Numeral.magnitude_lt_of_some (by rw [rounded]; rfl) low

theorem le_ten_pow {p : Int} (far : 310 ≤ p) : (1 + 1 / 2 ^ 51) * 2 ^ 1024 ≤ (10 : ℚ) ^ p := by
  have power : (10 ^ ((309 + 1 : Nat) : Int) : ℚ) ≤ 10 ^ p :=
    zpow_le_zpow_right₀ (by norm_num) far
  rw [zpow_natCast, pow_succ'] at power
  refine le_trans ?_ power
  exact mul_le_mul (by norm_num) two_pow_lt_ten_pow.le (by positivity) (by norm_num)

/-- A number of so many digits that an exponent too low to be read does not make it small becomes
zero, however far beyond the doubles it is. -/
theorem number?_of_many_digits {zeros : Nat} (many : 2 ^ 31 + 310 ≤ zeros) :
    let t : NumberToken := ⟨false, 1, List.replicate zeros Digit.zero, fun h => absurd h (by decide),
      [], some ⟨false, some true, Digit.ofNat (2 ^ 31), Digit.ofNat_ne_nil _⟩⟩
    t.numeral.power = -2 ^ 31 ∧ (1 + 1 / 2 ^ 51) * 2 ^ 1024 ≤ t.numeral.magnitude ∧
      t.number? = some (.float ⟨false, 0, by decide⟩) := by
  intro t
  have significand : t.significand = 10 ^ zeros := by
    have one : Digit.toNat [1] = 1 := rfl
    change Digit.toNat ([1] ++ List.replicate zeros Digit.zero ++ []) = _
    rw [List.append_nil, Digit.toNat_append, Digit.toNat_replicate, List.length_replicate, one,
      Nat.one_mul, Nat.add_zero]
  have power : t.power = -2 ^ 31 := by
    change -((Digit.toNat (Digit.ofNat (2 ^ 31)) : Nat) : Int) - 0 = _
    rw [Digit.toNat_ofNat]
    rfl
  have exponent : t.numeral.power = -2 ^ 31 := by
    rw [power_numeral, ← power]
    exact (sub_zero _).symm
  refine ⟨exponent, ?_, ?_⟩
  · have magnitude : t.numeral.magnitude = 10 ^ ((zeros : Int) + -2 ^ 31) := by
      rw [magnitude_numeral, significand, power, zpow_add₀ (by norm_num), zpow_natCast,
        Nat.cast_pow, Nat.cast_ofNat]
    rw [magnitude]
    exact le_ten_pow (by omega)
  · rw [number?_of_marked (.inr (by simp [t])),
      Numeral.toRounded_of_long_zero (by rw [exponent]; decide) (.inr (by rw [exponent]; decide))]
    rfl

end NumberToken

theorem Scalar.tree?_cases {value : Scalar} {j : Json} (tree : value.tree? = some j) :
    (value = .null ∧ j = .null) ∨ (∃ b, j = .bool b) ∨ (∃ n, j = .number n) ∨
      ∃ s, j = .string s := by
  cases value with
  | null => exact .inl ⟨rfl, (Option.some.inj tree).symm⟩
  | bool b => exact .inr (.inl ⟨b, (Option.some.inj tree).symm⟩)
  | number t =>
    obtain ⟨n, _, rfl⟩ := Option.map_eq_some_iff.1 tree
    exact .inr (.inr (.inl ⟨n, rfl⟩))
  | string pieces =>
    obtain ⟨cs, _, rfl⟩ := Option.map_eq_some_iff.1 tree
    exact .inr (.inr (.inr ⟨_, rfl⟩))

theorem eq_ofItems_of_items? {j : Json} {items : List Json} (h : j.items? = some items) :
    j = ofItems items := by
  obtain ⟨raw, ordered⟩ := j
  cases raw with
  | array raws =>
    obtain rfl := Option.some.inj h
    apply Json.ext
    simp [ofItems, List.map_pmap]
  | _ => cases h

namespace Element

/-- The text is that of null, blanks around it apart. -/
def IsNull (e : Element) : Prop := ∃ before after, e = .scalar before .null after

theorem eq_null_iff {e : Element} {j : Json} (tree : e.tree? = some j) : j = .null ↔ e.IsNull := by
  constructor
  · rintro rfl
    cases e with
    | scalar before value after =>
      obtain ⟨rfl, _⟩ | ⟨_, h⟩ | ⟨_, h⟩ | ⟨_, h⟩ := Scalar.tree?_cases tree
      · exact ⟨before, after, rfl⟩
      all_goals cases congrArg Json.raw h
    | array before gap items after =>
      rw [tree?_array] at tree
      obtain ⟨js, _, h⟩ := Option.map_eq_some_iff.1 tree
      cases congrArg Json.raw h
    | object before gap members after =>
      rw [tree?_object] at tree
      obtain ⟨ms, _, h⟩ := Option.map_eq_some_iff.1 tree
      cases congrArg Json.raw h
  · rintro ⟨before, after, rfl⟩
    exact (Option.some.inj tree).symm

theorem exists_items {e : Element} {js : List Json} (tree : e.tree? = some (ofItems js)) :
    ∃ before gap items after, e = .array before gap items after ∧
      List.Forall₂ (fun item j => item.tree? = some j) items js := by
  cases e with
  | scalar before value after =>
    obtain ⟨_, h⟩ | ⟨_, h⟩ | ⟨_, h⟩ | ⟨_, h⟩ := Scalar.tree?_cases tree
    all_goals cases congrArg Json.raw h
  | array before gap items after =>
    rw [tree?_array] at tree
    obtain ⟨js', each, same⟩ := Option.map_eq_some_iff.1 tree
    have same := congrArg Json.items? same
    rw [items?_ofItems, items?_ofItems] at same
    obtain rfl := Option.some.inj same
    exact ⟨before, gap, items, after, rfl, every_map_eq_some.1 each⟩
  | object before gap members after =>
    rw [tree?_object] at tree
    obtain ⟨ms, _, h⟩ := Option.map_eq_some_iff.1 tree
    cases congrArg Json.raw h

end Element

end Json

/-- The number is finite, and so are all numbers in the tree that is held. -/
def Value.AllFinite : Value → Prop
  | double x => ∃ y, x = .finite y
  | single x => ∃ y, x = .finite y
  | ref r => ∃ j, r.json? = some j ∧ ∀ n ∈ j.raw.numbers, ∃ y, n.toDouble = .finite y
  | int _ => True
  | text _ => True
  | null => True

theorem Json.allFinite_toValue (identity : Nat) (j : Json) : (j.toValue identity).AllFinite := by
  have each (n : Json.Number) := n.exists_toDouble
  obtain ⟨raw, ordered⟩ := j
  cases raw with
  | null => trivial
  | bool b => cases b <;> exact ⟨_, rfl⟩
  | number n =>
    cases n with
    | float x => exact ⟨x, rfl⟩
    | integer k inRange =>
      change (Json.Number.integer k inRange).toValue.AllFinite
      rw [Json.Number.toValue]
      split
      next => trivial
      next => exact each (.integer k inRange)
  | string s => trivial
  | array items => exact ⟨_, rfl, fun n _ => each n⟩
  | object members => exact ⟨_, rfl, fun n _ => each n⟩

/-- The value of a tree is written as null exactly if the text of the tree is null. -/
theorem toJson_toValue_eq_null_iff {identity : Nat} {e : Element} {j : Json}
    (tree : e.tree? = some j) : (j.toValue identity).toJson = .null ↔ e.IsNull := by
  rw [Json.toJson_toValue_eq, Json.normal_eq_null_iff, Element.eq_null_iff tree]

theorem exists_error_of_beyond {text : String} {e : Element} {t : NumberToken}
    (derived : e.text = text.toList) (within : .number t ∈ e.scalars)
    (low : -2 ^ 31 < t.numeral.power)
    (beyond : (1 + 1 / 2 ^ 51) * 2 ^ 1024 ≤ t.numeral.magnitude) :
    ∃ error, loadJson text = .error error := by
  cases loaded : loadJson text with
  | error error => exact ⟨error, rfl⟩
  | ok j =>
    have tree := tree?_of_loadJson loaded derived
    obtain ⟨_, inRange⟩ := e.isSome_tree?_iff.1 (by rw [tree]; rfl)
    obtain ⟨n, number⟩ := Option.isSome_iff_exists.1 (inRange t within)
    exact absurd (NumberToken.magnitude_lt_of_number? number low) (not_lt.2 beyond)

theorem forall₂_mapIdx {α β γ : Type} {R : α → β → Prop} {S : γ → α → Prop} {xs : List α}
    {ys : List β} (h : List.Forall₂ R xs ys) {f : Nat → β → γ}
    (each : ∀ i x y, R x y → S (f i y) x) : List.Forall₂ S (ys.mapIdx f) xs := by
  induction h generalizing f with
  | nil => exact .nil
  | cons first _ ih =>
    rw [List.mapIdx_cons]
    exact .cons (each 0 _ _ first) (ih fun i => each (i + 1))

/-- All that loads is finite, at any depth, and is written as null only where null was written. A
number beyond the end of the doubles, but for three roundings, is refused wherever it stands, unless
its exponent is too low to be read; and no number is out of range that is not near that end, unless
its exponent is too high to be read. -/
theorem loads_finite (identity : Nat) (text : String) :
    (∀ v, loadValue identity text = .ok v → v.AllFinite ∧
      ∀ e : Element, e.text = text.toList → (v.toJson = .null ↔ e.IsNull)) ∧
    (∀ vs, loadValues identity text = .ok vs → (∀ v ∈ vs, v.AllFinite) ∧
      ∀ e : Element, e.text = text.toList → ∃ before gap items after,
        e = .array before gap items after ∧
          List.Forall₂ (fun v item => v.toJson = .null ↔ Element.IsNull item) vs items) ∧
    (∀ (e : Element) (t : NumberToken), e.text = text.toList → .number t ∈ e.scalars →
      -2 ^ 31 < t.numeral.power → (1 + 1 / 2 ^ 51) * 2 ^ 1024 ≤ t.numeral.magnitude →
      ∃ error, loadValue identity text = .error error ∧ loadValues identity text = .error error ∧
        error.toFault.code = "E_JSON") ∧
    ∀ t : NumberToken, t.number? = none →
      (1 - 1 / 2 ^ 51) * 2 ^ 1024 ≤ t.numeral.magnitude ∨ 2 ^ 31 ≤ t.numeral.power := by
  refine ⟨fun v loads => ?_, fun vs loads => ?_, fun e t derived within low beyond => ?_,
    fun t => NumberToken.le_magnitude_of_number?⟩
  · obtain ⟨j, loaded, rfl⟩ := (loadValue_eq_ok_iff identity text v).1 loads
    exact ⟨j.allFinite_toValue identity,
      fun e derived => toJson_toValue_eq_null_iff (tree?_of_loadJson loaded derived)⟩
  · obtain ⟨j, js, loaded, listed, rfl⟩ := (loadValues_eq_ok_iff identity text vs).1 loads
    obtain rfl := Json.eq_ofItems_of_items? listed
    constructor
    · intro v mem
      obtain ⟨i, inside, rfl⟩ := List.mem_mapIdx.1 mem
      exact Json.allFinite_toValue _ _
    · intro e derived
      obtain ⟨before, gap, items, after, rfl, each⟩ :=
        Element.exists_items (tree?_of_loadJson loaded derived)
      exact ⟨before, gap, items, after, rfl,
        forall₂_mapIdx each fun _ _ _ tree => toJson_toValue_eq_null_iff tree⟩
  · obtain ⟨error, refused⟩ := exists_error_of_beyond derived within low beyond
    have value : loadValue identity text = .error error := by rw [loadValue, refused]
    obtain ⟨failure, _, rfl⟩ := exists_malformed value
    exact ⟨_, value, by rw [loadValues, refused], rfl⟩

/-- In a list, null is the only item that is written as null, and a number that is out of range
makes the whole text fail. -/
theorem loads_finite_list :
    let null : Element := .scalar .none .null .none
    let two : NumberToken := ⟨false, 2, [], fun _ => rfl, [], none⟩
    let items := [null, .scalar .none (.number two) .none]
    let far : NumberToken := ⟨false, 1, [], fun _ => rfl, [],
      some ⟨false, none, [9, 9, 9], List.cons_ne_nil _ _⟩⟩
    (∃ vs, loadValues 0 "[null,2]" = .ok vs ∧ (∀ v ∈ vs, v.AllFinite) ∧
      ∃ before gap items' after,
        Element.array .none .none items .none = .array before gap items' after ∧
        List.Forall₂ (fun v item => v.toJson = .null ↔ Element.IsNull item) vs items') ∧
      -2 ^ 31 < far.numeral.power ∧ (1 + 1 / 2 ^ 51) * 2 ^ 1024 ≤ far.numeral.magnitude ∧
      ∃ error, loadValue 0 "[1e999]" = .error error ∧ loadValues 0 "[1e999]" = .error error ∧
        error.toFault.code = "E_JSON" := by
  intro null two items far
  have first : null.tree? = some .null := rfl
  have number : two.number? = some (.integer 2 (by decide)) := by decide
  have second : (Element.scalar .none (.number two) .none).tree? =
      some (.number (.integer 2 (by decide))) := by
    rw [Element.tree?_scalar, Json.Scalar.tree?, number, Option.map_some]
  have tree : (Element.array .none .none items .none).tree? =
      some (.ofItems [.null, .number (.integer 2 (by decide))]) := by
    rw [Element.tree?_array, Element.every_map_eq_some.2 (.cons first (.cons second .nil)),
      Option.map_some]
  have loaded := (loadJson_eq_ok_iff "[null,2]" _).2 ⟨_, by decide, by decide, tree⟩
  have loads := (loadValues_eq_ok_iff 0 "[null,2]" _).2 ⟨_, _, loaded, Json.items?_ofItems _, rfl⟩
  obtain ⟨finite, nulls⟩ := (loads_finite 0 "[null,2]").2.1 _ loads
  have low : -2 ^ 31 < far.numeral.power := by decide
  have beyond : (1 + 1 / 2 ^ 51) * 2 ^ 1024 ≤ far.numeral.magnitude := by
    have significand : far.significand = 1 := by decide
    have power : far.power = 999 := by decide
    rw [far.magnitude_numeral, significand, power, Nat.cast_one, one_mul]
    exact NumberToken.le_ten_pow (by decide)
  exact ⟨⟨_, loads, finite, nulls _ (by decide)⟩, low, beyond,
    (loads_finite 0 "[1e999]").2.2.1
      (.array .none .none [.scalar .none (.number far) .none] .none) far (by decide)
      (List.mem_singleton.2 rfl) low beyond⟩

/-- A number that is greater than every double, and nearer to infinity than to the greatest one, is
not refused: its digits and its power are both rounded down, and it loads as the greatest double. -/
theorem loadValue_past_greatest :
    let t : NumberToken := ⟨false, 1, [], fun _ => rfl,
      [7, 9, 7, 6, 9, 3, 1, 3, 4, 8, 6, 2, 3, 1, 5, 9, 9],
      some ⟨false, none, [3, 0, 8], List.cons_ne_nil _ _⟩⟩
    t.text = "1.79769313486231599e308".toList ∧ 2 ^ 1024 < t.numeral.magnitude ∧
      (∀ x : Finite .double, x.toRat < t.numeral.magnitude) ∧
      Binary.ofRat .double false t.numeral.magnitude = .infinite false ∧
      loadValue 0 "1.79769313486231599e308" =
        .ok (.double (.finite ⟨false, 0x7fefffffffffffff, by decide⟩)) := by
  intro t
  have written : t.text = "1.79769313486231599e308".toList := by decide
  have number : t.number? = some (.float ⟨false, 0x7fefffffffffffff, by decide⟩) := by
    decide +kernel
  have beyond : (2 : ℚ) ^ 1024 < t.numeral.magnitude := by
    have significand : t.significand = 179769313486231599 := by decide
    have power : t.power = (291 : Nat) := by decide
    have above : 2 ^ 1024 < 179769313486231599 * 10 ^ 291 := by decide +kernel
    rw [t.magnitude_numeral, significand, power, zpow_natCast]
    exact_mod_cast above
  have greater (x : Finite .double) : x.toRat < t.numeral.magnitude := by
    have below := double.value_strictMono x.rank_lt
    have nonneg := double.value_nonneg x.rank
    rw [Format.double_value_count] at below
    rw [Finite.toRat, Binary.signed]
    split
    next => exact (neg_nonpos.2 nonneg).trans_lt (nonneg.trans_lt (below.trans beyond))
    next => exact below.trans beyond
  have infinite : Binary.ofRat .double false t.numeral.magnitude = .infinite false := by
    have quotient := Binary.natAbs_num_div_den t.magnitude_nonneg
    have far := double.lt_nearestRank_of_lt t.numeral.magnitude.den_pos
      ((Format.last_midpoint_bounds.2.trans beyond).trans_eq quotient.symm)
    rw [Binary.ofRat, Binary.nearest, Binary.ofRank, dif_neg (by omega)]
  exact ⟨written, beyond, greater, infinite, loadValue_of_number? written number 0⟩

end Untyped
